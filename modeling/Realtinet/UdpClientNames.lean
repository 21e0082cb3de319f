import Realtinet.InetAddressText
import Realtinet.UdpClientReconnect

/-! The names of a client's connections. `UdpClient::newConnection` prints the peer's ip and port and `nextConnId_` into
32 characters, half of what `UdpServer::newConnection` has, and the number comes last. -/

namespace Realtinet.UdpClient

open TransitionSystem BoundedPrint

/-- `connName` of `UdpClient::newConnection`; the peer of the connected socket is the server. -/
def connName (inetNtop6 : Vector UInt8 16 → List Char) (name : List Char) (peerAddr : InetAddress) (nextConnId : Nat) :
    List Char :=
  name ++ snprintf 32 (':' :: peerAddr.toIpPort inetNtop6 ++ '#' :: decimal nextConnId)

/-- Different numbers have different names. -/
def NamesUnique (connName : Nat → List Char) : Prop :=
  ∀ i j, 1 ≤ i → i < 2 ^ 31 → 1 ≤ j → j < 2 ^ 31 → i ≠ j → connName i ≠ connName j

/-- No two connections of one client, in any run that does not exhaust the numbers, share a name. -/
def NamesUniqueInRuns (connName : Nat → List Char) : Prop :=
  ∀ (writeComplete : Bool) (inputs : List Input) (s : UdpClient), Run writeComplete inputs s → s.nextConnId ≤ 2 ^ 31 →
    ∀ i j, s.Created i → s.Created j → i ≠ j → connName i ≠ connName j

/-- A client that fails often enough uses every number. -/
theorem exists_run_created (writeComplete : Bool) (n : Nat) :
    ∃ inputs s, Run writeComplete inputs s ∧ s.nextConnId = n + 2 := by
  obtain ⟨inputs, t, hrun, hinside⟩ := ClientThread.exists_run_fails writeComplete n
  exact ⟨inputs, t.client, ClientThread.client_run hrun, hinside.nextConnId⟩

theorem namesUnique_iff_inRuns (connName : Nat → List Char) : NamesUniqueInRuns connName ↔ NamesUnique connName := by
  constructor
  · intro h i j hi hi' hj hj' hne
    obtain ⟨inputs, s, hrun, hnext⟩ := exists_run_created false (max i j - 1)
    refine h false inputs s hrun (by omega) i j ⟨hi, ?_⟩ ⟨hj, ?_⟩ hne
    · rw [hnext]
      omega
    · rw [hnext]
      omega
  · intro h writeComplete inputs s _ hnext i j hi hj hne
    exact h i j hi.1 (Nat.lt_of_lt_of_le hi.2 hnext) hj.1 (Nat.lt_of_lt_of_le hj.2 hnext) hne

variable (inetNtop6 : Vector UInt8 16 → List Char) (name : List Char) (serverAddr : InetAddress)

/-- **When the names are unique.** The names of a client's connections differ, for all numbers and in all runs, if and
only if the ip and port of the server take at most 19 characters. -/
theorem names_unique_iff :
    (NamesUnique (connName inetNtop6 name serverAddr) ↔ (serverAddr.toIpPort inetNtop6).length ≤ 19) ∧
      (NamesUniqueInRuns (connName inetNtop6 name serverAddr) ↔ (serverAddr.toIpPort inetNtop6).length ≤ 19) := by
  have hunique : NamesUnique (connName inetNtop6 name serverAddr) ↔ (serverAddr.toIpPort inetNtop6).length ≤ 19 := by
    have hnumbers := distinct_numbers_iff 32 (':' :: serverAddr.toIpPort inetNtop6 ++ ['#'])
    have hroom : (':' :: serverAddr.toIpPort inetNtop6 ++ ['#']).length + 10 < 32 ↔
        (serverAddr.toIpPort inetNtop6).length ≤ 19 := by
      simp only [List.length_append, List.length_cons, List.length_nil]
      omega
    rw [← hroom, ← hnumbers]
    simp only [NamesUnique, connName, ne_eq, List.append_cancel_left_eq, List.append_assoc, List.singleton_append]
  exact ⟨hunique, (namesUnique_iff_inRuns _).trans hunique⟩

/-- A server on the loopback interface. -/
theorem names_unique_loopback :
    NamesUnique (connName hexGroups "client".toList ⟨AF_INET, 0xD007, 0x0100007F, Vector.replicate 16 0, 0⟩) := by
  have hiff := names_unique_iff hexGroups "client".toList ⟨AF_INET, 0xD007, 0x0100007F, Vector.replicate 16 0, 0⟩
  exact hiff.1.mpr (by decide)

/-- Printed `2001:db8:1111:2222:3333:4444:5555:6666:12345`. -/
def longServerAddr : InetAddress :=
  ⟨AF_INET6, 0x3930, 0,
    #v[0x20, 0x01, 0x0d, 0xb8, 0x11, 0x11, 0x22, 0x22, 0x33, 0x33, 0x44, 0x44, 0x55, 0x55, 0x66, 0x66], 0⟩

/-- The address alone fills the buffer: the first connection and the one after a reconnect have one name. -/
theorem names_collide_after_reconnect :
    ¬NamesUnique (connName hexGroups "client".toList longServerAddr) ∧
      ∃ s, Run false ClientThread.reopened s ∧ s.Created 1 ∧ s.Created 2 ∧
        connName hexGroups "client".toList longServerAddr 1 = connName hexGroups "client".toList longServerAddr 2 := by
  have hsame : connName hexGroups "client".toList longServerAddr 1 =
      connName hexGroups "client".toList longServerAddr 2 := by decide
  refine ⟨?_, ?_⟩
  · intro h
    exact h 1 2 (by decide) (by decide) (by decide) (by decide) (by decide) hsame
  · obtain ⟨s, hrun, hnext⟩ : ∃ s, Run false ClientThread.reopened s ∧ s.nextConnId = 3 := ⟨_, rfl, rfl⟩
    refine ⟨s, hrun, ⟨by decide, ?_⟩, ⟨by decide, ?_⟩, hsame⟩
    · rw [hnext]
      decide
    · rw [hnext]
      decide

end Realtinet.UdpClient
