import Mathlib.Data.Finset.Card
import Mathlib.Order.Interval.Finset.Nat
import VaultRun.Fairness.SeedChain

/-!
How the crash multiplier is distributed over the draws of 52 bits, counted exactly.
-/

namespace VaultRun.Fairness

open Finset

def crashesFrom (c : ℕ) : Finset ℕ := (range entropy).filter fun h => c ≤ crashFromHmacHex h

variable {c h j : ℕ}

lemma crashFromHmacHex_le : crashFromHmacHex h ≤ maxCents := (crashFromHmacHex_bounds h).2

lemma le_crashFromHmacHex_iff (hc : 100 < c) (hmax : c ≤ maxCents) :
    c ≤ crashFromHmacHex h ↔ c ≤ factor * (entropy + 1) / (h + 1) := by
  unfold crashFromHmacHex
  dsimp only
  generalize factor * (entropy + 1) / (h + 1) = cents
  split_ifs <;> omega

lemma crashFromHmacHex_antitone : Antitone crashFromHmacHex := by
  intro j h hjh
  have hdiv : factor * (entropy + 1) / (h + 1) ≤ factor * (entropy + 1) / (j + 1) :=
    Nat.div_le_div_left (Nat.succ_le_succ hjh) (Nat.succ_pos j)
  unfold crashFromHmacHex
  dsimp only
  split_ifs <;> omega

lemma card_crashesFrom (hc : 100 < c) (hmax : c ≤ maxCents) :
    (crashesFrom c).card = factor * (entropy + 1) / c := by
  have hpos : 0 < c := by omega
  have hlt : factor * (entropy + 1) / c ≤ entropy := by
    have hle : factor * (entropy + 1) / c ≤ factor * (entropy + 1) / 101 :=
      Nat.div_le_div_left hc (by decide)
    exact hle.trans (by decide)
  have hrange : crashesFrom c = range (factor * (entropy + 1) / c) := by
    ext h
    rw [crashesFrom, mem_filter, mem_range, mem_range, le_crashFromHmacHex_iff hc hmax,
      Nat.le_div_iff_mul_le (Nat.succ_pos h), Nat.lt_iff_add_one_le, Nat.lt_iff_add_one_le,
      Nat.le_div_iff_mul_le hpos, Nat.mul_comm c]
    refine ⟨fun hh => hh.2, fun hh => ⟨?_, hh⟩⟩
    exact ((Nat.le_div_iff_mul_le hpos).2 hh).trans hlt
  rw [hrange, card_range]

lemma instantBusts_eq : ((range entropy).filter fun h => crashFromHmacHex h = 100) = range entropy \ crashesFrom 101 := by
  ext h
  rw [mem_filter, mem_sdiff, crashesFrom, mem_filter]
  have hbound := (crashFromHmacHex_bounds h).1
  constructor
  · rintro ⟨hh, hcrash⟩
    refine ⟨hh, fun hge => ?_⟩
    have := hge.2
    omega
  · rintro ⟨hh, hnot⟩
    refine ⟨hh, ?_⟩
    have hlt : ¬ 101 ≤ crashFromHmacHex h := fun hge => hnot ⟨hh, hge⟩
    omega

lemma crashesFrom_subset : crashesFrom c ⊆ range entropy := filter_subset _ _

/-- The crash lies within its clamps and falls as the draw grows; its tail above 1.00 is the house factor
divided by the multiplier, and what is left of the draws busts at once. -/
theorem crash_distribution :
    (∀ h < entropy, 100 ≤ crashFromHmacHex h ∧ crashFromHmacHex h ≤ maxCents) ∧
    Antitone crashFromHmacHex ∧
    (∀ c, 100 < c → c ≤ maxCents →
      ((range entropy).filter fun h => c ≤ crashFromHmacHex h).card = factor * (entropy + 1) / c) ∧
    ((range entropy).filter fun h => crashFromHmacHex h = 100).card =
      entropy - factor * (entropy + 1) / 101 := by
  refine ⟨fun h _ => crashFromHmacHex_bounds h, crashFromHmacHex_antitone, fun c => card_crashesFrom, ?_⟩
  rw [instantBusts_eq, card_sdiff_of_subset crashesFrom_subset, card_range,
    card_crashesFrom (by decide) (by decide)]

end VaultRun.Fairness
