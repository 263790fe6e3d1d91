import Mathlib

/-!
The crash multiplier of a round, and the chain of seeds an epoch commits to.
-/

namespace VaultRun.Fairness

open Function

/-- `E`, `FACTOR` and `MAX_CENTS`. -/
def entropy : ℕ := 2 ^ 52

def factor : ℕ := 97

def maxCents : ℕ := 100000000

/-- The crash in cents; `h` is the number that the first 13 hex digits spell. -/
def crashFromHmacHex (h : ℕ) : ℕ :=
  let cents := factor * (entropy + 1) / (h + 1)
  let cents := if cents < 100 then 100 else cents
  if maxCents < cents then maxCents else cents

lemma crashFromHmacHex_bounds (h : ℕ) : 100 ≤ crashFromHmacHex h ∧ crashFromHmacHex h ≤ maxCents := by
  unfold crashFromHmacHex maxCents
  dsimp only
  split_ifs <;> omega

section Chain

variable (sha256Hex : String → String)

/-- `chain[n]` is the last seed, and every seed is the hash of the next one. -/
def chainDown : ℕ → String → List String
  | 0, last => [last]
  | n + 1, last => chainDown n (sha256Hex last) ++ [last]

/-- `generateSeedChain`, given the random seed it ends with; a chain shorter than 2 is refused. -/
def generateSeedChain (length : ℕ) (last : String) : Option (List String) :=
  if length < 2 then none else some (chainDown sha256Hex (length - 1) last)

def verifyChainLink (seed prevSeed : String) : Bool := sha256Hex seed = prevSeed

variable {sha256Hex} {n i : ℕ} {last s : String}

@[simp] lemma length_chainDown : (chainDown sha256Hex n last).length = n + 1 := by
  induction n generalizing last with
  | zero => rfl
  | succ n ih => simp [chainDown, ih]

lemma getElem?_chainDown (hi : i ≤ n) :
    (chainDown sha256Hex n last)[i]? = some (sha256Hex^[n - i] last) := by
  induction n generalizing last with
  | zero =>
      obtain rfl : i = 0 := by omega
      rfl
  | succ n ih =>
      rw [chainDown]
      rcases Nat.lt_or_ge i (n + 1) with hlt | hge
      · rw [List.getElem?_append_left (by simpa using hlt), ih (by omega)]
        rw [show n + 1 - i = (n - i) + 1 by omega, iterate_succ_apply]
      · obtain rfl : i = n + 1 := by omega
        rw [List.getElem?_append_right (by simp)]
        simp

lemma iterate_chainDown (h : (chainDown sha256Hex n last)[i]? = some s) :
    some (sha256Hex^[i] s) = (chainDown sha256Hex n last)[0]? := by
  have hi : i ≤ n := by
    have := (List.getElem?_eq_some_iff.1 h).1
    simp only [length_chainDown] at this
    omega
  rw [getElem?_chainDown hi] at h
  obtain rfl := Option.some.inj h
  rw [getElem?_chainDown (Nat.zero_le n), ← iterate_add_apply, Nat.sub_zero, Nat.add_sub_cancel' hi]

end Chain

end VaultRun.Fairness
