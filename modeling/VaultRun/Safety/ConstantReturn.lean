import Mathlib.Tactic.Ring
import VaultRun.Concurrency.Alone
import VaultRun.Fairness.Distribution
import VaultRun.Game.Scenario

/-!
The return of an automatic cash-out: the gate of `cashOut` pays a target only below the crash, so that no target
has the share of the draws that the distribution gives it.
-/

namespace VaultRun.Safety.ConstantReturn

open VaultRun.Concurrency VaultRun.Data VaultRun.Game Program BetsService Finset
open VaultRun.Fairness (entropy factor maxCents crashFromHmacHex crashFromHmacHex_le crashesFrom card_crashesFrom)

/-- The gate of `cashOut`. -/
def paysAt (round : Round) (mult : ℕ) : Bool := round.status = .running && mult < round.crashPoint

/-- The draws at which a running round pays a target of `c` cents. -/
def paidDraws (round : Round) (c : ℕ) : Finset ℕ :=
  (range entropy).filter fun h => paysAt { round with status := .running, crashPoint := crashFromHmacHex h } c

section Gate

variable {P : Params} {i n u c id : ℕ} {p : Panel} {σ σ' : State} {s : EngineState} {bet : Bet} {w : Wallet}
  {round : Round} {out : Except Err CashoutResult}

lemma evals_read {α : Type} {t : Stmt} {x : t.Result} {f : t.Result → Program game α} {out : Except Err α}
    (h : perform P i t σ = some (.ok x, σ)) :
    Evals (system P) (fun o _ => o = .ok) i (Game.await t >>= f) σ out σ' ↔
      Evals (system P) (fun o _ => o = .ok) i (f x) σ out σ' := by
  refine evals_await_bind_iff (I := game) ?_ ⟨Oracle.ok, rfl⟩
  rintro _ rfl
  exact h

/-- A call of `cashOut` that runs alone on an active bet goes on to pay it exactly where the gate says so. -/
lemma cashOut_gate (hstate : (σ.nodes n).state = some s) (hphase : s.phase = .running)
    (hslot : σ.bets.findUnique ⟨s.roundId, u, p⟩ = some (id, bet)) (hwallet : σ.wallets.row bet.walletId = some w)
    (hround : σ.rounds.row bet.slot.roundId = some round) (hactive : bet.status = .active) :
    Evals (system P) (fun o _ => o = .ok) i (cashOut P n u p (some c)) σ out σ' ↔
      Evals (system P) (fun o _ => o = .ok) i
        (if paysAt round c then claimWin P id bet c w.currency else pure (.rejected .tooLate)) σ out σ' := by
  unfold cashOut
  rw [evals_read (x := some ⟨s.roundId, s.phase, s.multiplier P σ.now⟩)
    (by simp [perform, Node.publicState, hstate])]
  dsimp only
  rw [if_neg (by simp [hphase])]
  change Evals _ _ _ (Game.await (.findSlot ⟨s.roundId, u, p⟩) >>= _) _ _ _ ↔ _
  rw [evals_read (x := some (id, bet)) (by simp [perform, hslot])]
  dsimp only
  rw [evals_read (x := w) (by simp [perform, hwallet]), evals_read (x := some round) (by simp [perform, hround])]
  dsimp only
  rw [if_neg (by simp [hactive])]
  by_cases hrunning : round.status = .running
  · by_cases hbelow : c < round.crashPoint
    · rw [if_neg (by simp [hrunning, hbelow]), if_pos (by simp [paysAt, hrunning, hbelow])]
    · rw [if_pos (by simp [Nat.le_of_not_lt hbelow]), if_neg (by simp [paysAt, hbelow])]
  · rw [if_pos (by simp [hrunning]), if_neg (by simp [paysAt, hrunning])]

end Gate

section Draws

variable {round : Round} {c : ℕ}

/-- The gate takes a crash at the target itself for a bust. -/
lemma paidDraws_eq : paidDraws round c = crashesFrom (c + 1) := by
  refine filter_congr fun h _ => ?_
  simp [paysAt]

lemma card_paidDraws (hc : 100 < c) (hmax : c < maxCents) :
    (paidDraws round c).card = factor * (entropy + 1) / (c + 1) := by
  rw [paidDraws_eq, card_crashesFrom (by omega) hmax]

lemma paidDraws_maxCents : paidDraws round maxCents = ∅ := by
  refine filter_eq_empty_iff.2 fun h _ => ?_
  have hle : crashFromHmacHex h ≤ maxCents := crashFromHmacHex_le
  simp [paysAt, hle]

lemma div_succ_lt (hpos : 0 < c) (hmax : c ≤ maxCents) :
    factor * (entropy + 1) / (c + 1) < factor * (entropy + 1) / c := by
  rw [Nat.lt_iff_add_one_le, Nat.le_div_iff_mul_le hpos]
  have hquot : factor * (entropy + 1) / (c + 1) * (c + 1) ≤ factor * (entropy + 1) := Nat.div_mul_le_self _ _
  have hlarge : c ≤ factor * (entropy + 1) / (c + 1) := by
    rw [Nat.le_div_iff_mul_le (Nat.succ_pos c)]
    have hsquare : c * (c + 1) ≤ maxCents * (maxCents + 1) := Nat.mul_le_mul hmax (Nat.succ_le_succ hmax)
    exact hsquare.trans (by decide)
  calc (factor * (entropy + 1) / (c + 1) + 1) * c
      = factor * (entropy + 1) / (c + 1) * c + c := by ring
    _ ≤ factor * (entropy + 1) / (c + 1) * c + factor * (entropy + 1) / (c + 1) := by omega
    _ = factor * (entropy + 1) / (c + 1) * (c + 1) := by ring
    _ ≤ factor * (entropy + 1) := hquot

/-- A target below the clamp is paid on as many draws as one of a cent more should be, and the clamp itself on
none: no target has the share that the distribution gives it. -/
theorem paid_as_one_cent_more (hc : 101 ≤ c) (hmax : c ≤ maxCents) :
    (paidDraws round c).card = (if c < maxCents then factor * (entropy + 1) / (c + 1) else 0) ∧
      (paidDraws round c).card ≠ factor * (entropy + 1) / c := by
  by_cases hlt : c < maxCents
  · have hcard : (paidDraws round c).card = factor * (entropy + 1) / (c + 1) := card_paidDraws hc hlt
    have hless := div_succ_lt (c := c) (by omega) hmax
    refine ⟨by rw [if_pos hlt, hcard], ?_⟩
    rw [hcard]
    omega
  · obtain rfl : c = maxCents := by omega
    rw [paidDraws_maxCents, if_neg hlt]
    exact ⟨rfl, by decide⟩

/-- A target of 2.00 is paid on the draws that reach 2.01. -/
theorem paid_at_two :
    (paidDraws (Scenario.round .running) 200).card = factor * (entropy + 1) / 201 :=
  (@paid_as_one_cent_more (Scenario.round .running) 200 (by decide) (by decide)).1

/-- A target of 1.01 is paid on fewer draws than the distribution says. -/
theorem target_underpaid :
    (paidDraws (Scenario.round .running) 101).card < factor * (entropy + 1) / 101 := by
  rw [card_paidDraws (by decide) (by decide)]
  exact div_succ_lt (by decide) (by decide)

end Draws

end VaultRun.Safety.ConstantReturn
