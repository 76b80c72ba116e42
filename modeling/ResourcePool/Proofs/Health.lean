import ResourcePool.Health
import ResourcePool.Proofs.Binary64

/-! Alarms: the utilization of a pool is rounded, and so is the level it is compared with, but for counts below
`2 ^ 50` the outcome is that of the exact numbers. -/
namespace ResourcePool

namespace Metrics

variable {inUse capacity : UInt64}

theorem ratio_eq (hinUse : inUse.toNat < 2 ^ 53) (hcapacity : capacity.toNat < 2 ^ 53) (hne : capacity ≠ 0) :
    ratio inUse capacity = .ofRatio inUse.toNat capacity.toNat := by
  unfold ratio
  rw [if_neg hne, Binary64.div_ofNat hinUse hcapacity]

end Metrics

namespace Health

open Binary64

/-- The number that follows the alarm level. -/
def pastAlarmLevel : Binary64 :=
  .ofRatio 8106479329266894 (2 ^ 53)

theorem toRat_alarmLevel : alarmLevel.toRat = (8106479329266893 : Nat) / (2 ^ 53 : Nat) :=
  toRat_ofRatio_of_half_le (by decide) (by decide)

theorem toRat_pastAlarmLevel : pastAlarmLevel.toRat = (8106479329266894 : Nat) / (2 ^ 53 : Nat) :=
  toRat_ofRatio_of_half_le (by decide) (by decide)

theorem isFinite_alarmLevel : alarmLevel.isFinite = true :=
  isFinite_ofRatio (by decide) (by decide)

theorem isFinite_pastAlarmLevel : pastAlarmLevel.isFinite = true :=
  isFinite_ofRatio (by decide) (by decide)

/-- The alarm level is a little more than nine tenths, and a ratio of small numbers that is more than nine tenths is
more than that by over half a step. -/
theorem exceeds_alarmLevel_iff {n d : Nat} (hd : 0 < d) (hn : n < 2 ^ 50) (hsmall : d < 2 ^ 50) :
    (ofRatio n d).exceeds alarmLevel = true ↔ 9 * d < 10 * n := by
  have hpos : (0 : ℚ) < d := Nat.cast_pos.mpr hd
  have hnearest := isNearest_ofRatio hd (isFinite_ofRatio hd (by omega : n < 2 ^ 64 * d))
  rw [exceeds_iff (toRat_ofRatio _ _) (show alarmLevel.toRat = _ from toRat_ofRatio _ _)]
  constructor
  · intro hlt
    by_contra hle
    -- the level is above nine tenths, and rounding does not go past it
    refine hlt.not_ge (hnearest.toRat_le isFinite_alarmLevel ?_)
    rw [toRat_alarmLevel, div_le_div_iff₀ hpos (by norm_num)]
    exact_mod_cast show n * 2 ^ 53 ≤ 8106479329266893 * d by omega
  · intro hlt
    -- as `9 * d + 1 ≤ 10 * n` and `d` is small, the ratio is past the middle between the level and the next number
    refine hnearest.lt_toRat isFinite_pastAlarmLevel ?_ ?_
    · rw [toRat_alarmLevel, toRat_pastAlarmLevel]
      norm_num
    · have hmiddle : (alarmLevel.toRat + pastAlarmLevel.toRat) / 2 = 16212958658533787 / 2 ^ 54 := by
        rw [toRat_alarmLevel, toRat_pastAlarmLevel]
        norm_num
      rw [hmiddle, div_lt_div_iff₀ (by norm_num) hpos]
      exact_mod_cast show 16212958658533787 * d < n * 2 ^ 54 by omega

variable {h : Health}

theorem exists_highUtilization_iff :
    (∃ x, .highUtilization x ∈ h.warnings) ↔ h.utilization.exceeds alarmLevel = true := by
  simp only [warnings, List.mem_append]
  constructor
  · rintro ⟨x, (hx | hx) | hx⟩
    · split_ifs at hx <;> simp at hx
    · split_ifs at hx with hexceeds
      · exact hexceeds
      · simp at hx
    · split_ifs at hx <;> simp at hx
  · intro hexceeds
    exact ⟨h.utilization, .inl (.inr (by simp [hexceeds]))⟩

theorem isHealthy_iff : h.isHealthy = true ↔ h.closed = false ∧ ¬ h.utilization.exceeds alarmLevel = true := by
  unfold isHealthy warnings
  split_ifs <;> simp_all [Warning.isCritical]

/-- A pool is alarming as the exact numbers have it. -/
theorem exceeds_iff_counts (hinUse : h.inUse.toNat < 2 ^ 50) (hmax : h.maxEntries.toNat < 2 ^ 50) :
    h.utilization.exceeds alarmLevel = true ↔
      0 < h.maxEntries.toNat ∧ 9 * h.maxEntries.toNat < 10 * h.inUse.toNat := by
  unfold utilization
  by_cases hne : h.maxEntries = 0
  · have hquiet : Binary64.zero.exceeds alarmLevel = false := decide_eq_false (Nat.not_lt_zero _)
    simp [Metrics.ratio, hne, hquiet]
  · have hpos : 0 < h.maxEntries.toNat := by
      by_contra hzero
      exact hne (UInt64.toNat_inj.mp (by simpa using hzero))
    rw [Metrics.ratio_eq (by omega) (by omega) hne, exceeds_alarmLevel_iff hpos hinUse hmax, and_iff_right hpos]

/-- For counts below `2 ^ 50` the alarm is exact. The utilization is the quotient of the counts rounded to a nearest
number, ties to even, and so is the alarm level for nine tenths; still a pool is alarming just if more than nine
tenths of its capacity are in use. -/
theorem alarm_above_nine_tenths (h : Health) (hinUse : h.inUse.toNat < 2 ^ 50)
    (hmax : h.maxEntries.toNat < 2 ^ 50) :
    (h.maxEntries.toNat = 0 → h.utilization = .zero) ∧
    (0 < h.maxEntries.toNat → h.utilization.IsNearest (h.inUse.toNat / h.maxEntries.toNat)) ∧
    alarmLevel.IsNearest (9 / 10) ∧
    ((∃ x, .highUtilization x ∈ h.warnings) ↔
      0 < h.maxEntries.toNat ∧ 9 * h.maxEntries.toNat < 10 * h.inUse.toNat) ∧
    (h.isHealthy = true ↔ h.closed = false ∧
      (h.maxEntries.toNat = 0 ∨ 10 * h.inUse.toNat ≤ 9 * h.maxEntries.toNat)) := by
  have hexceeds := exceeds_iff_counts hinUse hmax
  refine ⟨fun hzero => ?_, fun hpos => ?_, ?_, ?_, ?_⟩
  · exact if_pos (UInt64.toNat_inj.mp hzero)
  · have hne : h.maxEntries ≠ 0 := by
      intro hzero
      rw [hzero] at hpos
      exact absurd hpos (by decide)
    unfold utilization
    rw [Metrics.ratio_eq (by omega) (by omega) hne]
    exact isNearest_ofRatio hpos (isFinite_ofRatio hpos (by omega))
  · have hnearest : (ofRatio 9 10).IsNearest ((9 : Nat) / (10 : Nat)) :=
      isNearest_ofRatio (by decide) isFinite_alarmLevel
    exact_mod_cast hnearest
  · rw [exists_highUtilization_iff, hexceeds]
  · rw [isHealthy_iff, hexceeds]
    exact and_congr_right fun _ => by omega

/-- Exactly nine tenths of a capacity are no alarm, and the least that is more than nine tenths of one just below
`2 ^ 50` is. -/
theorem alarm_above_nine_tenths_at_the_boundary :
    (∀ x, .highUtilization x ∉ Health.warnings ⟨1, 9, 10, false⟩) ∧
    Health.isHealthy ⟨1, 9, 10, false⟩ = true ∧
    (∃ x, .highUtilization x ∈ Health.warnings ⟨1, 1013309916158359, 1125899906842621, false⟩) ∧
    Health.isHealthy ⟨1, 1013309916158359, 1125899906842621, false⟩ = false := by
  obtain ⟨-, -, -, hquiet, hhealthy⟩ := alarm_above_nine_tenths ⟨1, 9, 10, false⟩ (by decide) (by decide)
  obtain ⟨-, -, -, halarm, hunhealthy⟩ :=
    alarm_above_nine_tenths ⟨1, 1013309916158359, 1125899906842621, false⟩ (by decide) (by decide)
  refine ⟨fun x hx => ?_, hhealthy.mpr (by decide), halarm.mpr (by decide), ?_⟩
  · exact absurd (hquiet.mp ⟨x, hx⟩) (by decide)
  · exact Bool.eq_false_iff.mpr (mt hunhealthy.mp (by decide))

end Health

end ResourcePool
