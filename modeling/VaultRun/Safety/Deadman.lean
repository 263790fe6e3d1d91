import Mathlib
import VaultRun.Fairness.SeedChain
import VaultRun.Game.Engine

/-!
The liveness deadman of the leader. Timers fire on time and transitions take none; times are in milliseconds.
-/

namespace VaultRun.Safety.Deadman

open VaultRun.Game (Phase)
open VaultRun.Fairness (crashFromHmacHex)

noncomputable def growth : ℝ := 12 / 100000

def deadmanMs : ℝ := 60000

def deadmanCheckMs : ℝ := 10000

/-- How long a round runs, its crash point in hundredths. -/
noncomputable def crashDelay (crashPoint : ℕ) : ℝ := max 0 (Real.log (crashPoint / 100) / growth)

structure EngineState where
  /-- How many rounds were opened before this one. -/
  round : ℕ
  phase : Phase
  crashPoint : ℕ
  enteredAt : ℝ
  timerAt : ℝ
  lastRoundAt : ℝ

def EngineState.schedule (s : EngineState) (now ms : ℝ) : EngineState :=
  { s with enteredAt := now, timerAt := now + max 0 ms }

-- the crash points of the rounds, in the order in which the rounds are opened
variable (points : ℕ → ℕ)

namespace GameEngineService

def enterWaiting (s : EngineState) (now : ℝ) : EngineState :=
  { s with round := s.round + 1, phase := .waiting, crashPoint := points (s.round + 1) }.schedule now Phase.waiting.ms

def enterBetting (s : EngineState) (now : ℝ) : EngineState :=
  { s with phase := .betting }.schedule now Phase.betting.ms

noncomputable def enterRunning (s : EngineState) (now : ℝ) : EngineState :=
  { s with phase := .running }.schedule now (crashDelay s.crashPoint)

def enterCrashed (s : EngineState) (now : ℝ) : EngineState :=
  { s with phase := .crashed }.schedule now Phase.crashed.ms

def enterSettling (s : EngineState) (now : ℝ) : EngineState :=
  { s with phase := .settling }.schedule now Phase.settling.ms

def enterCompleted (s : EngineState) (now : ℝ) : EngineState :=
  { s with phase := .completed, lastRoundAt := now }.schedule now Phase.completed.ms

noncomputable def fire (s : EngineState) : EngineState :=
  match s.phase with
  | .waiting => enterBetting s s.timerAt
  | .betting => enterRunning s s.timerAt
  | .running => enterCrashed s s.timerAt
  | .crashed => enterSettling s s.timerAt
  | .settling => enterCompleted s s.timerAt
  | .completed => enterWaiting points s s.timerAt

/-- The round that a new leader finds open, or none. -/
inductive Found
  | none
  | waiting (phaseEndsAt : ℝ)
  | betting (phaseEndsAt : ℝ)
  | running (startedAt : ℝ)
  | crashed (phaseEndsAt : ℝ)
  | settling (phaseEndsAt : ℝ)

/-- The first round and its crash point are the same whether it is opened or resumed. -/
noncomputable def start (found : Found) (now : ℝ) : EngineState :=
  let s : EngineState := ⟨0, .waiting, points 0, now, now, now⟩
  match found with
  | .none => s.schedule now Phase.waiting.ms
  | .waiting phaseEndsAt => s.schedule now (max 0 (phaseEndsAt - now))
  | .betting phaseEndsAt => { s with phase := .betting }.schedule now (max 0 (phaseEndsAt - now))
  | .running startedAt =>
      let crashTime := startedAt + crashDelay s.crashPoint
      if now < crashTime then { s with phase := .running }.schedule now (crashTime - now) else enterCrashed s now
  | .crashed phaseEndsAt => { s with phase := .crashed }.schedule now (max 0 (phaseEndsAt - now))
  | .settling phaseEndsAt => { s with phase := .settling }.schedule now (max 0 (phaseEndsAt - now))

noncomputable def loop (found : Found) (now : ℝ) : ℕ → EngineState
  | 0 => start points found now
  | n + 1 => fire points (loop found now n)

/-- A check finds that no round has completed for too long. -/
def deadmanCheck (s : EngineState) (now : ℝ) : Prop := deadmanMs < now - s.lastRoundAt

/-- The checks come at regular times from some time on after the start, none of them finds the engine stalled. -/
def Healthy (found : Found) (now : ℝ) : Prop :=
  ∀ offset : ℝ, 0 < offset → offset ≤ deadmanCheckMs → ∀ k n : ℕ,
    (loop points found now n).enteredAt ≤ now + offset + k * deadmanCheckMs →
    now + offset + k * deadmanCheckMs ≤ (loop points found now n).timerAt →
    ¬ deadmanCheck (loop points found now n) (now + offset + k * deadmanCheckMs)

end GameEngineService

open GameEngineService

section Gaps

/-- From the end of the betting of a round to its completion. -/
noncomputable def afterBetting (crashPoint : ℕ) : ℝ := crashDelay crashPoint + 3000

/-- From the start to the first completion. -/
noncomputable def firstRoundMs (found : Found) (now : ℝ) (crashPoint : ℕ) : ℝ :=
  match found with
  | .none => 8000 + afterBetting crashPoint
  | .waiting phaseEndsAt => max 0 (phaseEndsAt - now) + 5000 + afterBetting crashPoint
  | .betting phaseEndsAt => max 0 (phaseEndsAt - now) + afterBetting crashPoint
  | .running startedAt => max 0 (startedAt + crashDelay crashPoint - now) + 3000
  | .crashed phaseEndsAt => max 0 (phaseEndsAt - now) + 500
  | .settling phaseEndsAt => max 0 (phaseEndsAt - now)

/-- From the completion before a round, or from the start, to its own. -/
noncomputable def gap (found : Found) (now : ℝ) : ℕ → ℝ
  | 0 => firstRoundMs found now (points 0)
  | k + 1 => 8600 + afterBetting (points (k + 1))

def awaited (s : EngineState) : ℕ := if s.phase = .completed then s.round + 1 else s.round

/-- From the next timer to the next completion. -/
noncomputable def ahead (s : EngineState) : ℝ :=
  match s.phase with
  | .waiting => 5000 + afterBetting s.crashPoint
  | .betting => afterBetting s.crashPoint
  | .running => 3000
  | .crashed => 500
  | .settling => 0
  | .completed => 8000 + afterBetting (points (s.round + 1))

variable {points} {found : Found} {now : ℝ} {s : EngineState} {n k : ℕ}

lemma crashDelay_nonneg (c : ℕ) : 0 ≤ crashDelay c := le_max_left _ _

lemma afterBetting_nonneg (c : ℕ) : 0 ≤ afterBetting c := add_nonneg (crashDelay_nonneg c) (by norm_num)

lemma ahead_nonneg : 0 ≤ ahead points s := by
  have h := afterBetting_nonneg s.crashPoint
  have h' := afterBetting_nonneg (points (s.round + 1))
  cases hphase : s.phase <;> simp only [ahead, hphase] <;> linarith

structure Inv (points : ℕ → ℕ) (found : Found) (now : ℝ) (s : EngineState) : Prop where
  began : now ≤ s.lastRoundAt
  entered : now ≤ s.enteredAt
  armed : s.enteredAt ≤ s.timerAt
  point : s.crashPoint = points s.round
  left : s.timerAt - s.lastRoundAt + ahead points s = gap points found now (awaited s)

lemma inv_start : Inv points found now (start points found now) := by
  have hmax (x : ℝ) : 0 ≤ max 0 x := le_max_left _ _
  have hdelay := crashDelay_nonneg (points 0)
  cases found with
  | none =>
      refine ⟨le_refl now, le_refl now, le_add_of_nonneg_right (hmax _), rfl, ?_⟩
      simp [start, EngineState.schedule, ahead, awaited, gap, firstRoundMs, Phase.ms]
      ring
  | waiting phaseEndsAt =>
      refine ⟨le_refl now, le_refl now, le_add_of_nonneg_right (hmax _), rfl, ?_⟩
      simp [start, EngineState.schedule, ahead, awaited, gap, firstRoundMs]
      ring
  | betting phaseEndsAt =>
      refine ⟨le_refl now, le_refl now, le_add_of_nonneg_right (hmax _), rfl, ?_⟩
      simp [start, EngineState.schedule, ahead, awaited, gap, firstRoundMs]
  | running startedAt =>
      rw [start]
      dsimp only
      split_ifs with hbefore
      · refine ⟨le_refl now, le_refl now, le_add_of_nonneg_right (hmax _), rfl, ?_⟩
        simp [EngineState.schedule, ahead, awaited, gap, firstRoundMs]
      · refine ⟨le_refl now, le_refl now, le_add_of_nonneg_right (hmax _), rfl, ?_⟩
        have hgone : max 0 (startedAt + crashDelay (points 0) - now) = 0 := max_eq_left (by linarith)
        simp [enterCrashed, EngineState.schedule, ahead, awaited, gap, firstRoundMs, Phase.ms, hgone]
        norm_num
  | crashed phaseEndsAt =>
      refine ⟨le_refl now, le_refl now, le_add_of_nonneg_right (hmax _), rfl, ?_⟩
      simp [start, EngineState.schedule, ahead, awaited, gap, firstRoundMs]
  | settling phaseEndsAt =>
      refine ⟨le_refl now, le_refl now, le_add_of_nonneg_right (hmax _), rfl, ?_⟩
      simp [start, EngineState.schedule, ahead, awaited, gap, firstRoundMs]

lemma Inv.fire (h : Inv points found now s) : Inv points found now (fire points s) := by
  have hmax (x : ℝ) : 0 ≤ max 0 x := le_max_left _ _
  have hdelay := crashDelay_nonneg s.crashPoint
  have htimer := h.entered.trans h.armed
  have hleft := h.left
  cases hphase : s.phase <;> rw [GameEngineService.fire, hphase] <;> dsimp only
  case waiting =>
      refine ⟨h.began, htimer, le_add_of_nonneg_right (hmax _), h.point, ?_⟩
      simp [ahead, awaited, hphase] at hleft
      simp [enterBetting, EngineState.schedule, ahead, awaited, Phase.ms]
      linarith
  case betting =>
      refine ⟨h.began, htimer, le_add_of_nonneg_right (hmax _), h.point, ?_⟩
      simp [ahead, awaited, hphase, afterBetting] at hleft
      simp [enterRunning, EngineState.schedule, ahead, awaited, max_eq_right hdelay]
      linarith
  case running =>
      refine ⟨h.began, htimer, le_add_of_nonneg_right (hmax _), h.point, ?_⟩
      simp [ahead, awaited, hphase] at hleft
      simp [enterCrashed, EngineState.schedule, ahead, awaited, Phase.ms]
      linarith
  case crashed =>
      refine ⟨h.began, htimer, le_add_of_nonneg_right (hmax _), h.point, ?_⟩
      simp [ahead, awaited, hphase] at hleft
      simp [enterSettling, EngineState.schedule, ahead, awaited, Phase.ms]
      linarith
  case settling =>
      refine ⟨htimer, htimer, le_add_of_nonneg_right (hmax _), h.point, ?_⟩
      simp [enterCompleted, EngineState.schedule, ahead, awaited, gap, Phase.ms]
      ring
  case completed =>
      refine ⟨h.began, htimer, le_add_of_nonneg_right (hmax _), rfl, ?_⟩
      simp [ahead, awaited, hphase] at hleft
      simp [enterWaiting, EngineState.schedule, ahead, awaited, Phase.ms]
      linarith

lemma inv_loop (points : ℕ → ℕ) (found : Found) (now : ℝ) (n : ℕ) : Inv points found now (loop points found now n) := by
  induction n with
  | zero => exact inv_start
  | succ n ih => exact ih.fire

def toSettling : Phase → ℕ
  | .waiting => 4
  | .betting => 3
  | .running => 2
  | .crashed => 1
  | .settling | .completed => 0

lemma toSettling_fire (h : toSettling s.phase = k + 1) : toSettling (fire points s).phase = k ∧
    (fire points s).phase ≠ .completed ∧ (fire points s).round = s.round := by
  cases hphase : s.phase <;> rw [hphase] at h <;> cases h <;> rw [GameEngineService.fire, hphase] <;>
    exact ⟨rfl, by rintro ⟨⟩, rfl⟩

lemma exists_settling_of_phase (hk : toSettling (loop points found now n).phase = k)
    (h : (loop points found now n).phase ≠ .completed) : ∃ m, (loop points found now m).phase = .settling ∧
      (loop points found now m).round = (loop points found now n).round := by
  induction k generalizing n with
  | zero =>
      cases hphase : (loop points found now n).phase <;> rw [hphase] at hk h
      case settling => exact ⟨n, hphase, rfl⟩
      case completed => exact absurd rfl h
      all_goals cases hk
  | succ k ih =>
      obtain ⟨hless, hphase, hround⟩ := @toSettling_fire points _ _ hk
      obtain ⟨m, hm, hsame⟩ := @ih (n + 1) hless hphase
      exact ⟨m, hm, hsame.trans hround⟩

lemma start_phase : (start points found now).phase ≠ .completed ∧ (start points found now).round = 0 := by
  cases found with
  | running startedAt =>
      rw [start]
      dsimp only
      split_ifs <;> simp [EngineState.schedule, enterCrashed]
  | _ => simp [start, EngineState.schedule]

lemma exists_settling (points : ℕ → ℕ) (found : Found) (now : ℝ) (k : ℕ) :
    ∃ n, (loop points found now n).phase = .settling ∧ (loop points found now n).round = k := by
  induction k with
  | zero =>
      obtain ⟨hphase, hround⟩ := @start_phase points found now
      obtain ⟨m, hm, hsame⟩ := @exists_settling_of_phase points found now 0 _ rfl hphase
      exact ⟨m, hm, hsame.trans hround⟩
  | succ k ih =>
      obtain ⟨n, hphase, hround⟩ := ih
      have hcompleted : (loop points found now (n + 1)).phase = .completed ∧
          (loop points found now (n + 1)).round = k := by
        rw [loop, GameEngineService.fire, hphase]
        exact ⟨rfl, hround⟩
      have hwaiting : (loop points found now (n + 2)).phase = .waiting ∧
          (loop points found now (n + 2)).round = k + 1 := by
        rw [loop, GameEngineService.fire, hcompleted.1]
        exact ⟨rfl, congrArg Nat.succ hcompleted.2⟩
      obtain ⟨m, hm, hsame⟩ := @exists_settling_of_phase points found now (n + 2) _ rfl (by rw [hwaiting.1]; decide)
      exact ⟨m, hm, hsame.trans hwaiting.2⟩

/-- At the time of a round's completion a check may still find the completion before it. -/
lemma timerAt_of_settling (hphase : (loop points found now n).phase = .settling)
    (hround : (loop points found now n).round = k) :
    (loop points found now n).timerAt - (loop points found now n).lastRoundAt = gap points found now k := by
  have hleft := (inv_loop points found now n).left
  simpa [ahead, awaited, hphase, hround] using hleft

lemma exists_check {now t : ℝ} (h : now < t) :
    ∃ offset : ℝ, 0 < offset ∧ offset ≤ deadmanCheckMs ∧ ∃ k : ℕ, now + offset + k * deadmanCheckMs = t := by
  have hms : 0 < deadmanCheckMs := by norm_num [deadmanCheckMs]
  obtain ⟨k, hk⟩ : ∃ k : ℕ, k + 1 = ⌈(t - now) / deadmanCheckMs⌉₊ :=
    ⟨_, Nat.sub_add_cancel (Nat.ceil_pos.2 (div_pos (by linarith) hms))⟩
  have hupper : (t - now) / deadmanCheckMs ≤ (k : ℝ) + 1 := by
    have hceil := Nat.le_ceil ((t - now) / deadmanCheckMs)
    rw [← hk] at hceil
    exact_mod_cast hceil
  have hlower : (k : ℝ) < (t - now) / deadmanCheckMs := Nat.lt_ceil.1 (by omega)
  rw [div_le_iff₀ hms] at hupper
  rw [lt_div_iff₀ hms] at hlower
  exact ⟨t - now - k * deadmanCheckMs, by linarith, by linarith, k, by ring⟩

lemma healthy_iff : Healthy points found now ↔ ∀ k, gap points found now k ≤ deadmanMs := by
  constructor
  · intro h k
    by_contra hslow
    obtain ⟨n, hphase, hround⟩ := exists_settling points found now k
    have htime := timerAt_of_settling hphase hround
    have hinv := inv_loop points found now n
    have hpos : (0 : ℝ) < deadmanMs := by norm_num [deadmanMs]
    obtain ⟨offset, hpositive, hle, k', hcheck⟩ :=
      exists_check (show now < (loop points found now n).timerAt by linarith [hinv.began])
    refine h offset hpositive hle k' n ?_ ?_ ?_
    · rw [hcheck]
      exact hinv.armed
    · rw [hcheck]
    · rw [deadmanCheck, hcheck, htime]
      exact not_le.1 hslow
  · intro h offset _ _ k n _ hbefore hstalled
    rw [deadmanCheck] at hstalled
    have hleft := (inv_loop points found now n).left
    have hahead := @ahead_nonneg points (loop points found now n)
    have hgap := h (awaited (loop points found now n))
    linarith

end Gaps

lemma crashDelay_le_iff {c : ℕ} {ms : ℝ} (hms : 0 ≤ ms) : crashDelay c ≤ ms ↔ Real.log (c / 100) ≤ ms * growth := by
  have hgrowth : 0 < growth := by norm_num [growth]
  rw [crashDelay, max_le_iff, div_le_iff₀ hgrowth]
  exact and_iff_right hms

lemma log_le_of_le {c : ℕ} (h : c ≤ 33200) : Real.log (c / 100) ≤ 5.808 := by
  rcases Nat.eq_zero_or_pos c with rfl | hpos
  · norm_num
  · have hc : (0 : ℝ) < c / 100 := by positivity
    have hle : (c : ℝ) / 100 ≤ 332 := by
      rw [div_le_iff₀ (by norm_num)]
      exact_mod_cast h
    have hnat : (332 : ℕ) ^ 37 ≤ 2 ^ 310 := by decide +kernel
    have hpow : Real.log (332 ^ 37) ≤ Real.log (2 ^ 310) :=
      Real.log_le_log (by norm_num) (by exact_mod_cast hnat)
    rw [Real.log_pow, Real.log_pow] at hpow
    have htwo := Real.log_two_lt_d9
    have hlog := Real.log_le_log hc hle
    push_cast at hpow
    linarith

lemma lt_log_of_le {c : ℕ} (h : 33300 ≤ c) : 5.808 < Real.log (c / 100) := by
  have hle : (333 : ℝ) ≤ c / 100 := by
    rw [le_div_iff₀ (by norm_num)]
    exact_mod_cast h
  have hpow : Real.log (2 ^ 243) ≤ Real.log (333 ^ 29) := Real.log_le_log (by norm_num) (by norm_num)
  rw [Real.log_pow, Real.log_pow] at hpow
  have htwo := Real.log_two_gt_d9
  have hlog := Real.log_le_log (by norm_num) hle
  push_cast at hpow
  linarith

lemma gap_succ_le_iff (points : ℕ → ℕ) (found : Found) (now : ℝ) (i : ℕ) :
    gap points found now (i + 1) ≤ deadmanMs ↔ Real.log (points (i + 1) / 100) ≤ 5.808 := by
  have hle := @crashDelay_le_iff (points (i + 1)) 48400 (by norm_num)
  rw [show (48400 : ℝ) * growth = 5.808 by norm_num [growth]] at hle
  rw [← hle, gap, afterBetting, deadmanMs]
  constructor <;> intro h <;> linarith

/-- The deadman leaves a healthy leader alone where the first round since the start completes within its window and
no later round's crash point has a logarithm above 5.808 (at most 332 times the stake has not, 333 times has). -/
theorem healthy_iff_crash_points (h : ℕ → ℕ) (found : Found) (now : ℝ) :
    Healthy (fun i => crashFromHmacHex (h i)) found now ↔
      firstRoundMs found now (crashFromHmacHex (h 0)) ≤ deadmanMs ∧
        ∀ i, Real.log ((crashFromHmacHex (h (i + 1)) : ℕ) / 100) ≤ 5.808 := by
  have hgap := gap_succ_le_iff (fun i => crashFromHmacHex (h i)) found now
  rw [healthy_iff]
  constructor
  · intro hall
    exact ⟨hall 0, fun i => (hgap i).1 (hall (i + 1))⟩
  · rintro ⟨hfirst, hlater⟩ k
    cases k with
    | zero => exact hfirst
    | succ i => exact (hgap i).2 (hlater i)

theorem healthy_of_low {h : ℕ → ℕ} {found : Found} {now : ℝ}
    (hfirst : firstRoundMs found now (crashFromHmacHex (h 0)) ≤ deadmanMs)
    (hlater : ∀ i, crashFromHmacHex (h (i + 1)) ≤ 33200) : Healthy (fun i => crashFromHmacHex (h i)) found now := by
  have hgap := gap_succ_le_iff (fun i => crashFromHmacHex (h i)) found now
  rw [healthy_iff]
  intro k
  cases k with
  | zero => exact hfirst
  | succ i => exact (hgap i).2 (log_le_of_le (hlater i))

theorem not_healthy_of_high {h : ℕ → ℕ} {found : Found} {now : ℝ} {i : ℕ} (hi : 33300 ≤ crashFromHmacHex (h (i + 1))) :
    ¬ Healthy (fun i => crashFromHmacHex (h i)) found now := by
  have hgap := gap_succ_le_iff (fun i => crashFromHmacHex (h i)) found now
  rw [healthy_iff]
  intro hall
  exact absurd ((hgap i).1 (hall (i + 1))) (not_le.2 (lt_log_of_le hi))

/-- A fresh leader's first round, which crashes at 3973.11, is still running when a check comes seventy seconds after
the start. -/
theorem long_round_demotes : crashFromHmacHex (2 ^ 40) = 397311 ∧
    ¬ Healthy (fun _ => crashFromHmacHex (2 ^ 40)) .none 0 := by
  have hcrash : crashFromHmacHex (2 ^ 40) = 397311 := by decide +kernel
  refine ⟨hcrash, fun h => ?_⟩
  rw [hcrash] at h
  have hdelay : (62000 : ℝ) ≤ crashDelay 397311 := by
    have hpow : Real.log (2 ^ 11) ≤ Real.log ((397311 : ℕ) / 100) := Real.log_le_log (by norm_num) (by norm_num)
    rw [Real.log_pow] at hpow
    have htwo := Real.log_two_gt_d9
    refine le_trans ?_ (le_max_right _ _)
    rw [le_div_iff₀ (by norm_num [growth]), growth]
    push_cast at hpow
    linarith
  have hstate : loop (fun _ => 397311) .none 0 2 =
      ⟨0, .running, 397311, 8000, 8000 + crashDelay 397311, 0⟩ := by
    simp [loop, start, GameEngineService.fire, enterBetting, enterRunning, EngineState.schedule, Phase.ms,
      max_eq_right (crashDelay_nonneg 397311)]
    norm_num
  refine h 10000 (by norm_num) (by norm_num [deadmanCheckMs]) 6 2 ?_ ?_ ?_ <;> rw [hstate]
  · norm_num [deadmanCheckMs]
  · norm_num [deadmanCheckMs]
    linarith
  · norm_num [deadmanCheck, deadmanMs, deadmanCheckMs]

end VaultRun.Safety.Deadman
