import Bedrock.Support.Pacing

/-!
# The chaos schedule of the fuzzing scheduler

`advance_schedule` runs at every enqueue.  It draws a new seed for the victims from time to
time, closes a starvation interval that is over, and opens a new one unless the completed ones
exceed their share of the run.
-/

namespace Bedrock.Scx

open Support

/-- The read-only data that `scx-init` sets. -/
structure Config where
  starveMinNs : UInt64
  starveMaxNs : UInt64
  gapMinNs : UInt64
  gapMaxNs : UInt64
  prioRerollNs : UInt64
  lowProbInv : UInt64
  starveCapPct : UInt64

/-- The schedule, and the intervals that it has begun: when, and how long. -/
structure Chaos where
  rndIdx : Nat := 0
  epochStart : UInt64 := 0
  nextDecision : UInt64 := 0
  starveBegin : UInt64 := 0
  starveUntil : UInt64 := 0
  totalStarveNs : UInt64 := 0
  epochSeed : UInt64 := 0
  prioRerollAt : UInt64 := 0
  begun : List (Nat × Nat) := []

namespace Chaos

variable (cfg : Config) (draws : Nat → UInt64) (s : Chaos) (now : UInt64)

/-- `rng_next` -/
def rngNext : UInt64 × Chaos :=
  (draws s.rndIdx, { s with rndIdx := s.rndIdx + 1 })

/-- `rng_range` -/
def rngRange (min max : UInt64) : UInt64 × Chaos :=
  if min ≥ max then (min, s)
  else (min + (s.rngNext draws).1 % (max - min), (s.rngNext draws).2)

/-- `next_decision = now + rng_range(gap_min_ns, gap_max_ns)` -/
def drawGap : Chaos :=
  let gap := s.rngRange draws cfg.gapMinNs cfg.gapMaxNs
  { gap.2 with nextDecision := now + gap.1 }

def beginEpoch : Chaos :=
  if s.epochStart = 0 then
    { { s with epochStart := now }.drawGap cfg draws now with
      prioRerollAt := now + cfg.prioRerollNs }
  else s

def reroll : Chaos :=
  if now ≥ s.prioRerollAt then
    { (s.rngNext draws).2 with
      epochSeed := (s.rngNext draws).1
      prioRerollAt := now + cfg.prioRerollNs }
  else s

/-- Whether an interval is over. -/
abbrev Over : Prop :=
  s.starveUntil ≠ 0 ∧ now ≥ s.starveUntil

def close : Chaos :=
  if s.Over now then
    { s with
      totalStarveNs := s.totalStarveNs + (s.starveUntil - s.starveBegin)
      starveUntil := 0 }.drawGap cfg draws now
  else s

/-- Whether it is time for an interval. -/
abbrev Decides : Prop :=
  s.starveUntil = 0 ∧ now ≥ s.nextDecision

/-- Whether the completed intervals leave room for one more. -/
abbrev Allowed : Prop :=
  s.totalStarveNs * 100 ≤ (now - s.epochStart) * cfg.starveCapPct

def drawLength : UInt64 × Chaos :=
  s.rngRange draws cfg.starveMinNs cfg.starveMaxNs

def openInterval : Chaos :=
  if s.Decides now then
    if s.Allowed cfg now then
      let len := s.drawLength cfg draws
      { len.2 with
        starveBegin := now
        starveUntil := now + len.1
        begun := (now.toNat, len.1.toNat) :: s.begun }
    else s.drawGap cfg draws now
  else s

def rolled : Chaos :=
  (s.beginEpoch cfg draws now).reroll cfg draws now

def settled : Chaos :=
  (s.rolled cfg draws now).close cfg draws now

/-- `advance_schedule` -/
def advanceSchedule : Chaos :=
  (s.settled cfg draws now).openInterval cfg draws now

/-- The sums and products that `advance_schedule` makes of intervals do not overflow. -/
structure Fits : Prop where
  total : (s.rolled cfg draws now).Over now → (s.rolled cfg draws now).totalStarveNs.toNat +
    ((s.rolled cfg draws now).starveUntil - (s.rolled cfg draws now).starveBegin).toNat < 2 ^ 64
  percent : (s.settled cfg draws now).Decides now →
    (s.settled cfg draws now).totalStarveNs.toNat * 100 < 2 ^ 64
  interval : (s.settled cfg draws now).Decides now → (s.settled cfg draws now).Allowed cfg now →
    now.toNat + ((s.settled cfg draws now).drawLength cfg draws).1.toNat < 2 ^ 64

/-- The schedules that enqueues in the order of time lead to, and the time of the last one. -/
inductive Reached : Chaos → UInt64 → Prop
  | boot : Reached {} 0
  | enqueue {s : Chaos} {last now : UInt64} (h : Reached s last) (hlast : last ≤ now)
      (hpos : 0 < now) (hfits : s.Fits cfg draws now) :
      Reached (s.advanceSchedule cfg draws now) now

variable {cfg draws s now}

/-- The completed intervals and the open one are those that were begun. -/
structure Steady (cfg : Config) (s : Chaos) (now : UInt64) : Prop where
  started : s.epochStart ≠ 0
  epoch : s.epochStart ≤ now
  total : s.totalStarveNs.toNat +
    (if s.starveUntil = 0 then 0 else (s.starveUntil - s.starveBegin).toNat) = totalLength s.begun
  paced : Paced cfg.starveCapPct.toNat s.epochStart.toNat
    (max cfg.starveMinNs.toNat cfg.starveMaxNs.toNat) s.begun

theorem rngRange_eq (draws : Nat → UInt64) (s : Chaos) (min max : UInt64) :
    ∃ i, (s.rngRange draws min max).2 = { s with rndIdx := i } := by
  unfold rngRange
  split <;> exact ⟨_, rfl⟩

theorem drawLength_le (cfg : Config) (draws : Nat → UInt64) (s : Chaos) :
    (s.drawLength cfg draws).1.toNat ≤ max cfg.starveMinNs.toNat cfg.starveMaxNs.toNat := by
  unfold drawLength rngRange
  split
  · exact Nat.le_max_left _ _
  rename_i hlt
  have hlt : cfg.starveMinNs.toNat < cfg.starveMaxNs.toNat := UInt64.not_le.mp hlt
  have hwidth := UInt64.toNat_sub_of_le _ cfg.starveMinNs (Nat.le_of_lt hlt)
  have hmod := Nat.mod_lt (draws s.rndIdx).toNat (Nat.sub_pos_of_lt hlt)
  have hmax := cfg.starveMaxNs.toNat_lt
  simp only [rngNext, UInt64.toNat_add, UInt64.toNat_mod, hwidth]
  omega

theorem Steady.drawGap (h : s.Steady cfg now) : (s.drawGap cfg draws now).Steady cfg now := by
  obtain ⟨i, hs⟩ := s.rngRange_eq draws cfg.gapMinNs cfg.gapMaxNs
  unfold Chaos.drawGap
  dsimp only
  rw [hs]
  exact ⟨h.started, h.epoch, h.total, h.paced⟩

theorem Steady.rolled (hpos : 0 < now) (h : s = {} ∨ s.Steady cfg now) :
    (s.rolled cfg draws now).Steady cfg now := by
  have hbegun : (s.beginEpoch cfg draws now).Steady cfg now := by
    unfold beginEpoch
    rcases h with rfl | h
    · have hstart : Steady cfg { epochStart := now } now :=
        ⟨(UInt64.ne_of_lt hpos).symm, UInt64.le_refl now, rfl, trivial⟩
      have hgap : (Chaos.drawGap cfg draws { epochStart := now } now).Steady cfg now :=
        hstart.drawGap
      exact ⟨hgap.started, hgap.epoch, hgap.total, hgap.paced⟩
    · rw [if_neg h.started]
      exact h
  unfold Chaos.rolled reroll
  split
  · exact ⟨hbegun.started, hbegun.epoch, hbegun.total, hbegun.paced⟩
  · exact hbegun

theorem Steady.close (h : s.Steady cfg now) (hfits : s.Over now →
      s.totalStarveNs.toNat + (s.starveUntil - s.starveBegin).toNat < 2 ^ 64) :
    (s.close cfg draws now).Steady cfg now := by
  unfold Chaos.close
  split
  · rename_i hover
    refine Steady.drawGap ⟨h.started, h.epoch, ?_, h.paced⟩
    have htotal := h.total
    rw [if_neg hover.1] at htotal
    rw [if_pos rfl, Nat.add_zero, UInt64.toNat_add, Nat.mod_eq_of_lt (hfits hover), htotal]
  · exact h

/-- An interval that is allowed keeps the pace. -/
theorem Steady.share (h : s.Steady cfg now) (hclosed : s.starveUntil = 0)
    (hpercent : s.totalStarveNs.toNat * 100 < 2 ^ 64) (hallowed : s.Allowed cfg now) :
    totalLength s.begun * 100 ≤ (now.toNat - s.epochStart.toNat) * cfg.starveCapPct.toNat := by
  have htotal := h.total
  rw [if_pos hclosed, Nat.add_zero] at htotal
  have hle : (s.totalStarveNs * 100).toNat ≤ ((now - s.epochStart) * cfg.starveCapPct).toNat :=
    hallowed
  rw [UInt64.toNat_mul, UInt64.toNat_mul, UInt64.toNat_sub_of_le _ _ h.epoch] at hle
  rw [← htotal]
  exact (Nat.mod_eq_of_lt hpercent).symm.le.trans (hle.trans (Nat.mod_le _ _))

theorem Steady.openInterval (h : s.Steady cfg now) (hpos : 0 < now)
    (hpercent : s.Decides now → s.totalStarveNs.toNat * 100 < 2 ^ 64)
    (hinterval : s.Decides now → s.Allowed cfg now →
      now.toNat + (s.drawLength cfg draws).1.toNat < 2 ^ 64) :
    (s.openInterval cfg draws now).Steady cfg now := by
  unfold Chaos.openInterval
  split
  · rename_i hdecides
    split
    · rename_i hallowed
      have hlen := drawLength_le cfg draws s
      have hshare := h.share hdecides.1 (hpercent hdecides) hallowed
      have hfits := hinterval hdecides hallowed
      obtain ⟨i, hs⟩ : ∃ i, (s.drawLength cfg draws).2 = { s with rndIdx := i } :=
        s.rngRange_eq draws _ _
      have hpos : 0 < now.toNat := hpos
      have huntil : now + (s.drawLength cfg draws).1 ≠ 0 := by
        intro hzero
        have hsum := congrArg UInt64.toNat hzero
        rw [UInt64.toNat_add, Nat.mod_eq_of_lt hfits] at hsum
        exact absurd (Nat.eq_zero_of_add_eq_zero hsum).1 hpos.ne'
      have htotal := h.total
      rw [if_pos hdecides.1, Nat.add_zero] at htotal
      dsimp only
      rw [hs]
      refine ⟨h.started, h.epoch, ?_, hlen, hshare, h.paced⟩
      rw [if_neg huntil, UInt64.add_comm, UInt64.add_sub_cancel, htotal]
      exact Nat.add_comm _ _
    · exact h.drawGap
  · exact h

theorem Reached.steady {last : UInt64} (h : Reached cfg draws s last) :
    s = {} ∨ s.Steady cfg last := by
  induction h with
  | boot => exact .inl rfl
  | @enqueue s last now _ hlast hpos hfits ih =>
    refine .inr (Steady.openInterval (Steady.close (Steady.rolled hpos ?_) hfits.total) hpos
      hfits.percent hfits.interval)
    exact ih.imp_right fun h => ⟨h.started, UInt64.le_trans h.epoch hlast, h.total, h.paced⟩

end Chaos

/-- At every time the starvation that is over is within its share of the run, up to one
interval of the longest length. -/
theorem starvation_capped {cfg : Config} {draws : Nat → UInt64} {s : Chaos} {last : UInt64}
    (h : Chaos.Reached cfg draws s last) (t : Nat) :
    elapsedAt t s.begun * 100 ≤ (t - s.epochStart.toNat) * cfg.starveCapPct.toNat +
      max cfg.starveMinNs.toNat cfg.starveMaxNs.toNat * 100 := by
  rcases h.steady with rfl | hsteady
  · exact Nat.zero_le _
  · exact hsteady.paced.elapsedAt_le t

/-- The configuration of `scx-init`. -/
def config : Config where
  starveMinNs := 50 * 1000000
  starveMaxNs := 1500 * 1000000
  gapMinNs := 100 * 1000000
  gapMaxNs := 800 * 1000000
  prioRerollNs := 500 * 1000000
  lowProbInv := 8
  starveCapPct := 35

theorem starvation_capped_second :
    ∃ s, Chaos.Reached config (fun _ => 0) s 1000000000 ∧ s.begun = [(1000000000, 50000000)] ∧
      elapsedAt 1020000000 s.begun * 100 ≤ (1020000000 - 1) * 35 + 1500000000 * 100 := by
  have hfirst : Chaos.Reached config (fun _ => 0) _ 1 :=
    .enqueue .boot (by decide) (by decide) ⟨by decide, by decide, by decide⟩
  have hsecond : Chaos.Reached config (fun _ => 0) _ 1000000000 :=
    hfirst.enqueue (by decide) (by decide) ⟨by decide, by decide, by decide⟩
  exact ⟨_, hsecond, by decide, starvation_capped hsecond 1020000000⟩

end Bedrock.Scx
