import UssdFlows.Proofs.Number.Nearest
import UssdFlows.SessionStore

/-!
# When a finished session is stale

The time that a session has been idle is a whole number of microseconds.  It is counted
in seconds, in the nearest number of the binary64 format (`Instant.isNearest_since`), and
it is this number that must exceed the retention (`SessionStore.isStale_iff`).

A whole number of seconds is a number of the format, so rounding does not carry an idle
time past the retention: what is stale has been idle for longer than it is retained
(`SessionStore.idle_of_isStale`).  The other way round it takes room for a number of the
format between the retention and the idle time.  A retention below `2 ^ 34` seconds leaves
that room for a single microsecond (`SessionStore.isStale_of_idle`); any other one is
exceeded by 31 microseconds at the latest (`SessionStore.isStale_of_long_idle`).
-/

namespace UssdFlows

/-! ## Whole numbers and their neighbours -/

namespace Binary64

variable {x : Binary64} {r : ℚ} {n : Int}

/-- Rounding does not pass a whole number. -/
theorem IsNearest.value_le_whole (h : x.IsNearest r) (hlow : -2 ^ 52 ≤ r) (hhigh : r ≤ 2 ^ 52)
    (hle : r ≤ n) : x.value ≤ n := by
  have hn : -2 ^ 52 ≤ n := by exact_mod_cast hlow.trans hle
  have hdigits : (min n (2 ^ 52)).natAbs < Nat.pow 2 53 := by
    show (min n (2 ^ 52)).natAbs < 2 ^ 53
    omega
  obtain ⟨y, hy, hvalue⟩ := exists_of_digits hdigits (q := 0) ⟨by decide, by decide⟩
  rw [zpow_zero, mul_one] at hvalue
  have hbound : r ≤ y.value := by
    rw [hvalue, Int.cast_min]
    exact le_min hle (by exact_mod_cast hhigh)
  calc x.value ≤ y.value := h.value_le hy hbound
    _ = (min n (2 ^ 52) : Int) := hvalue
    _ ≤ n := Int.cast_le.2 (min_le_left _ _)

/-- The numbers of the format around a whole number leave gaps of `1 / 2 ^ k`: beyond the
middle of such a gap, rounding stays above the whole number. -/
theorem IsNearest.whole_lt_value (h : x.IsNearest r) (k : Nat) (hk : k ≤ 1074)
    (hdigits : (n * 2 ^ k + 1).natAbs < Nat.pow 2 53) (hgap : 2 * n + 1 / 2 ^ k < 2 * r) :
    (n : ℚ) < x.value := by
  have hexponent : leastExponent ≤ -(k : Int) ∧ -(k : Int) ≤ greatestExponent := by
    simp only [leastExponent, greatestExponent]
    omega
  obtain ⟨z, hz, hvalue⟩ := exists_of_digits hdigits hexponent
  have hpow : (0 : ℚ) < 2 ^ k := by positivity
  have hnext : z.value = n + 1 / 2 ^ k := by
    rw [hvalue, zpow_neg, zpow_natCast]
    push_cast
    field_simp
  have hhere := value_of_whole n
  have hunit : (0 : ℚ) < 1 / 2 ^ k := by positivity
  rw [← hhere]
  refine h.lt_value hz ?_ ?_
  · rw [hhere, hnext]
    linarith
  · rw [hhere, hnext]
    linarith

end Binary64

/-! ## Seconds -/

namespace Instant

variable {t u : Instant} {n : Int}

/-- Microseconds are counted in the nearest number of seconds. -/
theorem isNearest_secondsOf {micros : Int} (h : micros.natAbs < 2 ^ 53 * 1000000) :
    (secondsOf micros).IsNearest (micros / 1000000) := by
  have hden : (0 : ℚ) < (1000000 : Nat) := by positivity
  have hlimit : (micros.natAbs / (1000000 : Nat) : ℚ) < Binary64.overflow := by
    refine lt_trans ?_ (Nat.cast_lt.2 Binary64.lt_overflow)
    rw [div_lt_iff₀ hden]
    exact_mod_cast h
  have hnear := Binary64.isNearest_ofRatio (by decide) hlimit
  rcases lt_or_ge micros 0 with hneg | hpos
  · have hvalue : (micros / 1000000 : ℚ) = -(micros.natAbs / (1000000 : Nat)) := by
      rw [Nat.cast_natAbs, abs_of_neg hneg]
      push_cast
      ring
    rw [secondsOf, decide_eq_true hneg, Binary64.ofRatio_negate, hvalue]
    exact hnear.negate
  · have hvalue : (micros / 1000000 : ℚ) = micros.natAbs / (1000000 : Nat) := by
      rw [Nat.cast_natAbs, abs_of_nonneg hpos]
      push_cast
      rfl
    rwa [secondsOf, decide_eq_false hpos.not_gt, hvalue]

/-- No two instants are farther apart than the years that can be written. -/
theorem natAbs_since_lt (t u : Instant) : (t.since u).natAbs < 3652059 * 86400000000 := by
  have ht := t.inRange
  have hu := u.inRange
  simp only [since]
  omega

/-- The time between two instants is counted in the nearest number of seconds. -/
theorem isNearest_since (t u : Instant) :
    (secondsOf (t.since u)).IsNearest (t.since u / 1000000) :=
  isNearest_secondsOf ((natAbs_since_lt t u).trans (by decide))

theorem exceeds_since : (secondsOf (t.since u)).exceeds n = true ↔
    (n : ℚ) < (secondsOf (t.since u)).value :=
  Binary64.exceeds_iff (isNearest_since t u).inFormat.isFinite

/-- A whole number of seconds that is exceeded by the count is exceeded. -/
theorem lt_since_of_exceeds (h : (secondsOf (t.since u)).exceeds n = true) :
    n * 1000000 < t.since u := by
  by_contra hle
  have hrange := natAbs_since_lt t u
  have hlow : -(2 ^ 52 * 1000000) ≤ t.since u := by omega
  have hhigh : t.since u ≤ 2 ^ 52 * 1000000 := by omega
  have hlow' : (-(2 ^ 52 * 1000000) : ℚ) ≤ t.since u := by exact_mod_cast hlow
  have hhigh' : (t.since u : ℚ) ≤ 2 ^ 52 * 1000000 := by exact_mod_cast hhigh
  have hle' : (t.since u : ℚ) ≤ n * 1000000 := by exact_mod_cast not_lt.1 hle
  exact (exceeds_since.1 h).not_ge
    ((isNearest_since t u).value_le_whole (by linarith) (by linarith) (by linarith))

/-- Up to `2 ^ 34` seconds a microsecond more is enough. -/
theorem exceeds_of_lt_since (hn : 0 ≤ n) (hsmall : n < 2 ^ 34) (h : n * 1000000 < t.since u) :
    (secondsOf (t.since u)).exceeds n = true := by
  have hmore : (n : ℚ) * 1000000 + 1 ≤ t.since u := by exact_mod_cast h
  refine exceeds_since.2 ((isNearest_since t u).whole_lt_value 19 (by decide) ?_ ?_)
  · show (n * 2 ^ 19 + 1).natAbs < 2 ^ 53
    omega
  · norm_num
    linarith

/-- In any case 31 microseconds more are enough. -/
theorem exceeds_of_add_lt_since (hn : 0 ≤ n) (h : n * 1000000 + 30 < t.since u) :
    (secondsOf (t.since u)).exceeds n = true := by
  have hrange := natAbs_since_lt t u
  have hnext : n * 1000000 + 31 ≤ t.since u := by omega
  have hmore : (n : ℚ) * 1000000 + 31 ≤ t.since u := by exact_mod_cast hnext
  refine exceeds_since.2 ((isNearest_since t u).whole_lt_value 14 (by decide) ?_ ?_)
  · show (n * 2 ^ 14 + 1).natAbs < 2 ^ 53
    omega
  · norm_num
    linarith

end Instant

/-! ## Stale sessions -/

namespace SessionStore

variable {s : Session} {retention : Int} {now : Instant}

theorem isStale_eq_true : isStale retention now s = true ↔ s.isActive = false ∧
    (Instant.secondsOf (now.since s.lastActivityAt)).exceeds retention = true := by
  rw [isStale, Bool.and_eq_true, Bool.not_eq_true']

/-- **Staleness.**  A session is stale if it is finished and the number of the format
nearest to its idle time in seconds exceeds the retention. -/
theorem isStale_iff : isStale retention now s = true ↔ s.isActive = false ∧
    ∃ x : Binary64, x.IsNearest (now.since s.lastActivityAt / 1000000) ∧
      (retention : ℚ) < x.value := by
  rw [isStale_eq_true, Instant.exceeds_since]
  refine and_congr_right fun _ => ⟨fun h => ⟨_, Instant.isNearest_since _ _, h⟩, ?_⟩
  rintro ⟨x, hx, h⟩
  rwa [(Instant.isNearest_since _ _).unique hx]

/-- What is stale has been idle for longer than it is retained. -/
theorem idle_of_isStale (h : isStale retention now s = true) :
    s.isActive = false ∧ retention * 1000000 < now.since s.lastActivityAt :=
  (isStale_eq_true.1 h).imp_right Instant.lt_since_of_exceeds

/-- What has been idle for longer than a retention below `2 ^ 34` seconds is stale. -/
theorem isStale_of_idle (hover : s.isActive = false) (hpos : 0 ≤ retention)
    (hsmall : retention < 2 ^ 34) (h : retention * 1000000 < now.since s.lastActivityAt) :
    isStale retention now s = true :=
  isStale_eq_true.2 ⟨hover, Instant.exceeds_of_lt_since hpos hsmall h⟩

/-- What has been idle for 31 microseconds longer than any retention is stale. -/
theorem isStale_of_long_idle (hover : s.isActive = false) (hpos : 0 ≤ retention)
    (h : retention * 1000000 + 30 < now.since s.lastActivityAt) :
    isStale retention now s = true :=
  isStale_eq_true.2 ⟨hover, Instant.exceeds_of_add_lt_since hpos h⟩

end SessionStore

end UssdFlows
