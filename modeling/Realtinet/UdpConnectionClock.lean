import Mathlib.Algebra.Group.Int.Defs
import Mathlib.Algebra.Group.Nat.Defs
import Realtinet.UdpConnection

/-! When `KcpSessionUpdate` arms its next update. The clock given to `KcpSession` is the wall clock in
milliseconds, cast to `int`; what `Update` returns is compared with zero for an error, multiplied by
1000 and used as an absolute time in microseconds. `KcpSession` is not part of the repository and the
source takes its result as `auto`: both signed types it can have are kept apart. -/

namespace Realtinet.UdpConnection

/-- The type of the result of `KcpSession::Update`. -/
inductive UpdateResult where
  | int32
  | int64
  deriving DecidableEq, Repr

def UpdateResult.bits : UpdateResult → Nat
  | .int32 => 32
  | .int64 => 64

/-- The clock function of the constructor at the time `t`, in microseconds since the epoch:
`static_cast<int>(microSecondsSinceEpoch() / 1000)`. -/
def clockMs (t : Int) : Int := (t.tdiv 1000).bmod (2 ^ 32)

/-- What `Update` is assumed to return when it does not fail: the reading of the clock plus a delay of `d`
milliseconds. -/
def nextUpdateTimeMs (result : UpdateResult) (t d : Int) : Int :=
  (clockMs t + d).bmod (2 ^ result.bits)

/-- `Timestamp(nextUpdateTimeMs * 1000)`: the product has the type of its left factor. -/
def nextUpdateTimestamp (result : UpdateResult) (nextUpdateTimeMs : Int) : Int :=
  (nextUpdateTimeMs * 1000).bmod (2 ^ result.bits)

/-- An update at the time `t` that asks to be repeated after `d` milliseconds is not taken for an error,
and the timer it arms expires `d` milliseconds later, up to the rounding of the clock. -/
structure FollowsWallClock (result : UpdateResult) (t d : Int) (c : UdpConnection) : Prop where
  noError : ¬nextUpdateTimeMs result t d < 0
  armed : ∃ c', c.kcpUpdated (nextUpdateTimeMs result t d) = .ok c' ∧ c'.timers = c.timers ++ [c.nextTimer] ∧
    c'.trace = .runAt c.nextTimer :: c.trace
  notBefore : t + 1000 * d - 999 ≤ nextUpdateTimestamp result (nextUpdateTimeMs result t d)
  notAfter : nextUpdateTimestamp result (nextUpdateTimeMs result t d) ≤ t + 1000 * d

/-- The reading of the clock, or with a 32-bit result the whole deadline, is below `2^31`. -/
def ClockFits (result : UpdateResult) (t d : Int) : Prop :=
  match result with
  | .int64 => t / 1000 < 2 ^ 31
  | .int32 => 1000 * (t / 1000 + d) < 2 ^ 31

instance clockFitsDecidable (result : UpdateResult) (t d : Int) : Decidable (ClockFits result t d) :=
  match result with
  | .int64 => inferInstanceAs (Decidable (t / 1000 < 2 ^ 31))
  | .int32 => inferInstanceAs (Decidable (1000 * (t / 1000 + d) < 2 ^ 31))

/-- A value cast to `int` keeps its residue and lands in the range of `int`. -/
theorem bmod_int32 (x : Int) :
    ∃ k : Int, x.bmod (2 ^ 32) = x - 4294967296 * k ∧ -2147483648 ≤ x.bmod (2 ^ 32) ∧
      x.bmod (2 ^ 32) < 2147483648 := by
  refine ⟨x.bdiv (2 ^ 32), ?_, Int.le_bmod (by decide), Int.bmod_lt (by decide)⟩
  have h := Int.bmod_add_bdiv x (2 ^ 32)
  omega

theorem nextUpdateTimeMs_int64 {t d : Int} (hd0 : 0 ≤ d) (hd : d ≤ 60000) :
    nextUpdateTimeMs .int64 t d = clockMs t + d := by
  obtain ⟨k, -, hlow, hhigh⟩ := bmod_int32 (t.tdiv 1000)
  rw [nextUpdateTimeMs, UpdateResult.bits]
  rw [← clockMs] at hlow hhigh
  exact Int.bmod_eq_of_le_mul_two (by omega) (by omega)

theorem nextUpdateTimestamp_int64 {t d : Int} (hd0 : 0 ≤ d) (hd : d ≤ 60000) :
    nextUpdateTimestamp .int64 (nextUpdateTimeMs .int64 t d) = 1000 * (clockMs t + d) := by
  obtain ⟨k, -, hlow, hhigh⟩ := bmod_int32 (t.tdiv 1000)
  rw [nextUpdateTimeMs_int64 hd0 hd, nextUpdateTimestamp, UpdateResult.bits, Int.mul_comm]
  rw [← clockMs] at hlow hhigh
  exact Int.bmod_eq_of_le_mul_two (by omega) (by omega)

theorem clockMs_eq {t : Int} (ht : 0 ≤ t) (hfits : t / 1000 < 2 ^ 31) : clockMs t = t / 1000 := by
  rw [clockMs, Int.tdiv_eq_ediv_of_nonneg ht]
  exact Int.bmod_eq_of_le_mul_two (by omega) (by omega)

/-- A deadline that has lost a multiple of `2^32` is far too early. -/
theorem clockMs_lt {t : Int} (ht : 0 ≤ t) (hfits : ¬t / 1000 < 2 ^ 31) :
    clockMs t ≤ t / 1000 - 4294967296 := by
  obtain ⟨k, heq, -, hhigh⟩ := bmod_int32 (t / 1000)
  rw [clockMs, Int.tdiv_eq_ediv_of_nonneg ht]
  omega

theorem nextUpdateTimestamp_int32 (t d : Int) :
    nextUpdateTimestamp .int32 (nextUpdateTimeMs .int32 t d) = (1000 * (t.tdiv 1000 + d)).bmod (2 ^ 32) := by
  rw [nextUpdateTimestamp, nextUpdateTimeMs, clockMs, UpdateResult.bits, Int.bmod_add_bmod, Int.bmod_mul_bmod,
    Int.mul_comm]

/-- `KcpSessionUpdate` arms a timer whenever it does not take the result for an error. -/
theorem kcpUpdated_of_nonneg {ms : Int} (h : ¬ms < 0) (c : UdpConnection) :
    ∃ c', c.kcpUpdated ms = .ok c' ∧ c'.timers = c.timers ++ [c.nextTimer] ∧
      c'.trace = .runAt c.nextTimer :: c.trace := by
  rw [kcpUpdated, if_neg h]
  exact ⟨_, rfl, rfl, rfl⟩

theorem followsWallClock_int64 {t d : Int} (c : UdpConnection) (ht : 0 ≤ t) (hd0 : 0 ≤ d) (hd : d ≤ 60000) :
    FollowsWallClock .int64 t d c ↔ t / 1000 < 2 ^ 31 := by
  have hms := @nextUpdateTimeMs_int64 t d hd0 hd
  have hstamp := @nextUpdateTimestamp_int64 t d hd0 hd
  constructor
  · intro h
    by_contra hfits
    have hearly := clockMs_lt ht hfits
    have hnot := h.notBefore
    omega
  · intro hfits
    have hclock := clockMs_eq ht hfits
    have hnonneg : ¬nextUpdateTimeMs .int64 t d < 0 := by omega
    exact ⟨hnonneg, kcpUpdated_of_nonneg hnonneg c, by omega, by omega⟩

theorem followsWallClock_int32 {t d : Int} (c : UdpConnection) (ht : 0 ≤ t) (hd0 : 0 ≤ d) :
    FollowsWallClock .int32 t d c ↔ 1000 * (t / 1000 + d) < 2 ^ 31 := by
  have hstamp := nextUpdateTimestamp_int32 t d
  rw [Int.tdiv_eq_ediv_of_nonneg ht] at hstamp
  constructor
  · intro h
    by_contra hfits
    obtain ⟨k, heq, -, hhigh⟩ := bmod_int32 (1000 * (t / 1000 + d))
    have hnot := h.notBefore
    omega
  · intro hfits
    have hclock := clockMs_eq ht (by omega)
    have hms : nextUpdateTimeMs .int32 t d = t / 1000 + d := by
      rw [nextUpdateTimeMs, hclock, UpdateResult.bits]
      exact Int.bmod_eq_of_le_mul_two (by omega) (by omega)
    have hexact : (1000 * (t / 1000 + d)).bmod (2 ^ 32) = 1000 * (t / 1000 + d) :=
      Int.bmod_eq_of_le_mul_two (by omega) (by omega)
    have hnonneg : ¬nextUpdateTimeMs .int32 t d < 0 := by omega
    exact ⟨hnonneg, kcpUpdated_of_nonneg hnonneg c, by omega, by omega⟩

/-- **When the updates follow the wall clock.** Whatever the type of the result of `Update`, an update
is armed for the time it asks for if and only if the clock still fits: with a 64-bit result while the
clock is below `2^31` milliseconds, with a 32-bit one while the deadline is below `2^31` microseconds.
Both end within the first month of 1970. -/
theorem followsWallClock_iff (result : UpdateResult) (t d : Int) (c : UdpConnection) (ht : 0 ≤ t)
    (hd0 : 0 ≤ d) (hd : d ≤ 60000) :
    FollowsWallClock result t d c ↔ ClockFits result t d := by
  cases result with
  | int64 => exact followsWallClock_int64 c ht hd0 hd
  | int32 => exact followsWallClock_int32 c ht hd0

/-- Five seconds after the epoch the update comes when asked for. -/
theorem followsWallClock_early : FollowsWallClock .int64 5000000 10 (new false) :=
  (followsWallClock_iff .int64 5000000 10 (new false) (by decide) (by decide) (by decide)).mpr
    (by decide)

/-- In July 2017 it does not, with either type. -/
theorem followsWallClock_fails :
    ¬∃ result, ∀ (t d : Int) (c : UdpConnection), 0 ≤ t → t / 1000 ≤ 2 ^ 52 → 0 ≤ d → d ≤ 60000 →
      FollowsWallClock result t d c := by
  rintro ⟨result, h⟩
  have hlate := (h 1500000000000000 10 (new false) (by decide) (by decide) (by decide) (by decide)).notBefore
  cases result <;> exact absurd hlate (by decide)

end Realtinet.UdpConnection
