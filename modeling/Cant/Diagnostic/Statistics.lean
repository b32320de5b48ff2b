/-
# `Statistics` — running statistics (`timing/timing_monitor.c`, `performance/perf_monitor.c`)

Both monitors keep the least and the greatest sample, and an average that is rebuilt at every sample
from a product in 32 bits. `statistics_sound` says what holds of them. One metric is modelled,
since the metrics do not share anything.
-/
import Mathlib.Data.List.Induction
import Cant.Lib.Run

namespace Cant.Diagnostic

open List

structure Stats where
  minValue : UInt32
  maxValue : UInt32
  avgValue : UInt32
  totalSamples : UInt32
  deriving DecidableEq

def Stats.reset : Stats := ⟨0xFFFFFFFF, 0, 0, 0⟩

def Stats.sample (s : Stats) (value : UInt32) : Stats where
  minValue := if value < s.minValue then value else s.minValue
  maxValue := if value > s.maxValue then value else s.maxValue
  avgValue := (s.avgValue * (s.totalSamples + 1 - 1) + value) / (s.totalSamples + 1)
  totalSamples := s.totalSamples + 1

/-- The sum that the average is rebuilt from does not wrap. -/
def Stats.Fits (s : Stats) (value : UInt32) : Prop :=
  s.avgValue.toNat * s.totalSamples.toNat + value.toNat < 4294967296
  deriving Decidable

def stopMeasurement (maxSamples : UInt32) (s : Stats) (duration : UInt32) : Stats :=
  if maxSamples > 0 ∧ (s.sample duration).totalSamples ≥ maxSamples then .reset
  else s.sample duration

/-- `MetricData`; of the history only where it is written. -/
structure MetricData where
  stats : Stats
  historySize : Nat
  historyIndex : Nat

def MetricData.init (maxHistorySize : UInt32) : MetricData :=
  ⟨.reset, min maxHistorySize.toNat 1000, 0⟩

/-- `Perf_UpdateMetric`; without an answer it writes behind the history. -/
def MetricData.updateMetric (d : MetricData) (value : UInt32) : Option MetricData :=
  if d.historyIndex < d.historySize then
    some ⟨d.stats.sample value, d.historySize, (d.historyIndex + 1) % d.historySize⟩
  else none

variable {samples : List UInt32}

/-- A field that a sample takes over or not, and that a reset sets to the worst value, is
extreme. -/
theorem foldl_extreme {f : Stats → UInt32} {r : UInt32 → UInt32 → Prop} (hrefl : ∀ v, r v v)
    (htrans : ∀ {u v w}, r u v → r v w → r u w) (hantisymm : ∀ {u v}, r u v → r v u → u = v)
    (hreset : ∀ v, r v (f .reset)) (hpick : ∀ s v,
      f (s.sample v) = v ∧ r v (f s) ∨ f (s.sample v) = f s ∧ r (f s) v) (hne : samples ≠ []) :
    let best := f (samples.foldl Stats.sample .reset)
    best ∈ samples ∧ ∀ v ∈ samples, r best v := by
  have h : (f (samples.foldl Stats.sample .reset) ∈ samples ∨
        f (samples.foldl Stats.sample .reset) = f .reset) ∧
      ∀ v ∈ samples, r (f (samples.foldl Stats.sample .reset)) v := by
    clear hne
    induction samples using List.reverseRecOn with
    | nil => exact ⟨.inr rfl, nofun⟩
    | append_singleton samples value ih =>
      rw [foldl_append, forall_mem_append, forall_mem_singleton, mem_append]
      obtain ⟨heq, hr⟩ | ⟨heq, hr⟩ := hpick (samples.foldl Stats.sample .reset) value
      · rw [foldl_cons, foldl_nil, heq]
        exact ⟨.inl (.inr mem_cons_self), fun v hv => htrans hr (ih.2 v hv), hrefl value⟩
      · rw [foldl_cons, foldl_nil, heq]
        exact ⟨ih.1.imp_left .inl, ih.2, hr⟩
  refine ⟨h.1.elim id fun hworst => ?_, h.2⟩
  obtain ⟨v, hv⟩ := exists_mem_of_ne_nil samples hne
  exact hantisymm (h.2 v hv) (hworst ▸ hreset v) ▸ hv

theorem Stats.total_succ {s : Stats} (h : s.totalSamples.toNat + 1 < 4294967296) :
    (s.totalSamples + 1).toNat = s.totalSamples.toNat + 1 := by
  rw [UInt32.toNat_add]
  exact Nat.mod_eq_of_lt h

theorem total_reset : Stats.reset.totalSamples.toNat = 0 := rfl

theorem foldl_total {s : Stats} (hroom : s.totalSamples.toNat + samples.length < 4294967296) :
    (samples.foldl Stats.sample s).totalSamples.toNat = s.totalSamples.toNat + samples.length := by
  induction samples generalizing s with
  | nil => rfl
  | cons value samples ih =>
    rw [length_cons] at hroom ⊢
    have hnext : (s.sample value).totalSamples.toNat = _ := s.total_succ (by omega)
    rw [foldl_cons, ih (by omega), hnext]
    omega

/-- The average lies between the bounds, if there are samples. -/
structure Stats.Between (low high : UInt32) (s : Stats) : Prop where
  low : low.toNat * s.totalSamples.toNat ≤ s.avgValue.toNat * s.totalSamples.toNat
  high : s.avgValue.toNat ≤ high.toNat

theorem Stats.Between.sample {s : Stats} {low high value : UInt32} (h : s.Between low high)
    (hroom : s.totalSamples.toNat + 1 < 4294967296) (hlow : low.toNat ≤ value.toNat)
    (hhigh : value.toNat ≤ high.toNat) (hfits : s.Fits value) :
    (s.sample value).Between low high := by
  have htotal := s.total_succ hroom
  have havg : (s.sample value).avgValue.toNat =
      (s.avgValue.toNat * s.totalSamples.toNat + value.toNat) / (s.totalSamples.toNat + 1) := by
    unfold Stats.sample
    rw [UInt32.add_sub_cancel, UInt32.toNat_div, htotal, UInt32.toNat_add, UInt32.toNat_mul,
      Nat.mod_eq_of_lt (Nat.lt_of_le_of_lt (Nat.le_add_right ..) hfits), Nat.mod_eq_of_lt hfits]
  refine ⟨Nat.mul_le_mul_right _ ?_, ?_⟩
  · rw [havg, Nat.le_div_iff_mul_le (Nat.succ_pos _)]
    exact Nat.add_le_add h.low hlow
  · rw [havg]
    refine Nat.div_le_of_le_mul ?_
    rw [Nat.mul_comm _ high.toNat]
    exact Nat.add_le_add (Nat.mul_le_mul_right _ h.high) hhigh

theorem foldl_between {s : Stats} {low high : UInt32} (h : s.Between low high)
    (hroom : s.totalSamples.toNat + samples.length < 4294967296)
    (hbounds : ∀ v ∈ samples, low.toNat ≤ v.toNat ∧ v.toNat ≤ high.toNat)
    (hfits : Run.Along (fun s v => some (s.sample v, ())) Stats.Fits s samples) :
    (samples.foldl Stats.sample s).Between low high := by
  induction samples generalizing s with
  | nil => exact h
  | cons value samples ih =>
    rw [length_cons] at hroom
    obtain ⟨hvalue, hrest⟩ := forall_mem_cons.mp hbounds
    have hnext : (s.sample value).totalSamples.toNat = _ := s.total_succ (by omega)
    exact ih (h.sample (by omega) hvalue.1 hvalue.2 hfits.1) (by omega) hrest (hfits.2 _ _ rfl)

theorem foldl_stopMeasurement {maxSamples : UInt32}
    (hlast : maxSamples = 0 ∨ samples.length < maxSamples.toNat) :
    samples.foldl (stopMeasurement maxSamples) .reset = samples.foldl Stats.sample .reset := by
  induction samples using List.reverseRecOn with
  | nil => rfl
  | append_singleton samples value ih =>
    rw [foldl_append, foldl_append, ih (hlast.imp_right fun h => ?_)]
    · refine if_neg fun ⟨hpos, hfull⟩ => ?_
      have hlt := hlast.resolve_left fun hzero => absurd (hzero ▸ hpos) (by decide)
      have hroom := Nat.lt_trans hlt maxSamples.toNat_lt
      have hcount := foldl_total (s := .reset) (by rwa [total_reset, Nat.zero_add])
      rw [foldl_append, total_reset, Nat.zero_add] at hcount
      exact Nat.not_lt.mpr (hcount ▸ UInt32.le_iff_toNat_le.mp hfull) hlt
    · exact Nat.lt_of_le_of_lt (length_append ▸ Nat.le_add_right ..) h

theorem foldlM_updateMetric (samples : List UInt32) {d : MetricData}
    (h : d.historyIndex < d.historySize) :
    ∃ d', samples.foldlM MetricData.updateMetric d = some d' ∧
      d'.stats = samples.foldl Stats.sample d.stats := by
  induction samples generalizing d with
  | nil => exact ⟨d, rfl, rfl⟩
  | cons value samples ih =>
    rw [foldlM_cons, MetricData.updateMetric, if_pos h]
    exact ih (Nat.mod_lt (d.historyIndex + 1) (Nat.zero_lt_of_lt h))

/-- **The statistics of both monitors.** After any samples since a reset the extremes are right,
and the average lies between them if no sum it is rebuilt from wraps on the way; the history is
written inside exactly if it has room for an entry. -/
theorem statistics_sound {maxSamples maxHistorySize : UInt32} (hne : samples ≠ [])
    (hroom : samples.length < 4294967296)
    (hlast : maxSamples = 0 ∨ samples.length < maxSamples.toNat) :
    let s := samples.foldl (stopMeasurement maxSamples) .reset
    (s.minValue ∈ samples ∧ ∀ v ∈ samples, s.minValue ≤ v) ∧
      (s.maxValue ∈ samples ∧ ∀ v ∈ samples, v ≤ s.maxValue) ∧
      (Run.Along (fun s v => some (Stats.sample s v, ())) Stats.Fits .reset samples →
        s.minValue ≤ s.avgValue ∧ s.avgValue ≤ s.maxValue) ∧
      ((∃ d, samples.foldlM MetricData.updateMetric (.init maxHistorySize) = some d ∧ d.stats = s) ↔
        maxHistorySize ≠ 0) := by
  rw [foldl_stopMeasurement hlast]
  have hmin := foldl_extreme (f := Stats.minValue) UInt32.le_refl UInt32.le_trans UInt32.le_antisymm
    (fun v => UInt32.le_iff_toNat_le.mpr (Nat.le_of_lt_succ v.toNat_lt)) (fun s v => by
      rcases UInt32.lt_or_le v s.minValue with h | h
      · exact .inl ⟨if_pos h, UInt32.le_of_lt h⟩
      · exact .inr ⟨if_neg (UInt32.not_lt.mpr h), h⟩) hne
  have hmax := foldl_extreme (f := Stats.maxValue) (r := (· ≥ ·)) UInt32.le_refl
    (fun h h' => UInt32.le_trans h' h) (fun h h' => UInt32.le_antisymm h' h)
    (fun v => UInt32.zero_le) (fun s v => by
      rcases UInt32.lt_or_le s.maxValue v with h | h
      · exact .inl ⟨if_pos h, UInt32.le_of_lt h⟩
      · exact .inr ⟨if_neg (UInt32.not_lt.mpr h), h⟩) hne
  refine ⟨hmin, hmax, fun hfits => ?_, ?_, fun hsize => ?_⟩
  · have hcount : Stats.reset.totalSamples.toNat + samples.length < 4294967296 := by
      rwa [total_reset, Nat.zero_add]
    have hbetween := foldl_between (s := .reset) ⟨Nat.le_refl 0, Nat.zero_le _⟩ hcount (fun v hv =>
      ⟨UInt32.le_iff_toNat_le.mp (hmin.2 v hv), UInt32.le_iff_toNat_le.mp (hmax.2 v hv)⟩) hfits
    have hlow := hbetween.low
    rw [foldl_total hcount, total_reset, Nat.zero_add] at hlow
    exact ⟨UInt32.le_iff_toNat_le.mpr (Nat.le_of_mul_le_mul_right hlow (length_pos_iff.mpr hne)),
      UInt32.le_iff_toNat_le.mpr hbetween.high⟩
  · rintro ⟨d, hrun, -⟩ rfl
    cases samples with
    | nil => exact hne rfl
    | cons value samples => cases hrun
  · refine foldlM_updateMetric samples (Nat.lt_min.mpr ⟨?_, Nat.succ_pos 999⟩)
    exact Nat.pos_of_ne_zero fun hzero => hsize (UInt32.toNat_inj.mp hzero)

theorem statistics_of_three :
    let s := [1, 0x80000000, 4].foldl (stopMeasurement 0) .reset
    s.minValue ≤ s.avgValue ∧ s.avgValue ≤ s.maxValue :=
  (@statistics_sound [1, 0x80000000, 4] 0 1 nofun (by decide) (.inl rfl)).2.2.1 (by decide)

/-- A sum that wraps may by chance leave the average between the extremes. -/
example : ¬ Stats.Fits ([0, 0xFFFFFFFF].foldl Stats.sample .reset) 0xFFFFFFFF ∧
    [0, 0xFFFFFFFF, 0xFFFFFFFF].foldl Stats.sample .reset = ⟨0, 0xFFFFFFFF, 0x55555554, 3⟩ := by
  decide

/-- Two samples of 2^31 have the average 0, and a history of size 0 is written. -/
theorem average_wraps :
    [0x80000000, 0x80000000].foldl (stopMeasurement 0) .reset = ⟨0x80000000, 0x80000000, 0, 2⟩ ∧
      (MetricData.init 0).updateMetric 5 = none :=
  ⟨rfl, rfl⟩

end Cant.Diagnostic
