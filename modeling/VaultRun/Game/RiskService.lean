import VaultRun.Data.Numeral
import VaultRun.Game.Rows

/-!
The risk ceilings read from the environment, and the boot guard of the operator mode.
-/

namespace VaultRun.Game.RiskService

open VaultRun.Data.Numeral

abbrev Env := String → Option String

def envBig (env : Env) (name : String) (default : ℤ) : ℤ :=
  match env name with
  | none => default
  | some v => if v ≠ "" ∧ allDigits v.toList then ofDigits v else default

def envNum (env : Env) (name : String) (default : Number) : Number :=
  match env name with
  | none => default
  | some v => if v ≠ "" ∧ toNumber v ≠ .nan then toNumber v else default

def requiredRealmoneyRiskKeys : List String :=
  ["RISK_MAX_WIN_PER_BET", "RISK_MAX_MULTIPLIER", "RISK_MAX_ROUND_EXPOSURE", "RISK_MAX_BET"]

/-- A key that counts as missing for the guard. -/
def isMissing (env : Env) (k : String) : Bool :=
  match env k with
  | none => true
  | some v => trim v.toList = [] || !(toNumber v).positive

def assertRiskConfigForMode (env : Env) : Except String Unit :=
  let mode := (env "WALLET_PROVIDER_TYPE").getD "internal"
  if mode = "internal" ∨ env "RISK_ALLOW_DEMO_DEFAULTS" = some "true" then .ok ()
  else
    let missing := requiredRealmoneyRiskKeys.filter (isMissing env)
    if 0 < missing.length then
      .error ("WALLET_PROVIDER_TYPE=" ++ mode ++ " requires explicit real-money risk ceilings — set " ++
        ", ".intercalate missing ++ " to a positive value (the demo-grade defaults are not " ++
        "real-money safe), or set RISK_ALLOW_DEMO_DEFAULTS=true to override (non-prod only).")
    else .ok ()

/-- The limits as the environment gives them, where the largest multiplier is any number. -/
structure Limits extends PerBetLimits where
  maxMultiplier : Number
  maxRoundExposure : ℤ

def limits (env : Env) : Limits where
  minBet := envBig env "RISK_MIN_BET" 1
  maxBet := envBig env "RISK_MAX_BET" 1000000
  maxWinPerBet := envBig env "RISK_MAX_WIN_PER_BET" 100000000
  maxMultiplier := envNum env "RISK_MAX_MULTIPLIER" (.finite 1000000)
  maxRoundExposure := envBig env "RISK_MAX_ROUND_EXPOSURE" 10000000000

def potentialPayout (l : Limits) (amount : ℤ) : Except Unit ℤ := do
  let uncapped := amount * (← l.maxMultiplier.toBigInt)
  pure (if uncapped < l.maxWinPerBet then uncapped else l.maxWinPerBet)

def capPayout (l : Limits) (payout : ℤ) (maxWinPerBet : Option ℤ) : Except Unit ℤ :=
  let own := maxWinPerBet.getD l.maxWinPerBet
  let cap := if own < l.maxWinPerBet then own else l.maxWinPerBet
  pure (if cap < payout then cap else payout)

variable {env : Env} {k v : String} {l : Limits} {n amount : ℤ}

lemma envBig_of_digits (hv : env k = some v) (hdigits : allDigits v.toList = true) (d : ℤ) :
    envBig env k d = ofDigits v := by
  have hne : v ≠ "" := by
    rintro rfl
    cases hdigits
  simp [envBig, hv, hne, hdigits]

lemma envBig_of_not_digits (hv : env k = some v) (hdigits : ¬ allDigits v.toList = true) (d : ℤ) :
    envBig env k d = d := by
  simp [envBig, hv, hdigits]

lemma envNum_of_number (hv : env k = some v) (hne : v ≠ "") (hnan : toNumber v ≠ .nan) (d : Number) :
    envNum env k d = toNumber v := by
  simp [envNum, hv, hne, hnan]

lemma envNum_of_nan (hv : env k = some v) (hnan : v = "" ∨ toNumber v = .nan) (d : Number) :
    envNum env k d = d := by
  rcases hnan with h | h <;> simp [envNum, hv, h]

lemma assertRiskConfigForMode_ok : assertRiskConfigForMode env = .ok () ↔
    (env "WALLET_PROVIDER_TYPE").getD "internal" = "internal" ∨
      env "RISK_ALLOW_DEMO_DEFAULTS" = some "true" ∨ ∀ k ∈ requiredRealmoneyRiskKeys, isMissing env k = false := by
  unfold assertRiskConfigForMode
  dsimp only
  split
  · rename_i h
    exact ⟨fun _ => h.imp id .inl, fun _ => rfl⟩
  · rename_i h
    rw [not_or] at h
    split
    · rename_i hmissing
      refine ⟨nofun, fun hok => ?_⟩
      obtain ⟨k, hk⟩ := List.exists_mem_of_length_pos hmissing
      rw [List.mem_filter] at hk
      rcases hok with hmode | hhatch | hall
      · exact absurd hmode h.1
      · exact absurd hhatch h.2
      · rw [hall k hk.1] at hk
        cases hk.2
    · rename_i hmissing
      refine ⟨fun _ => .inr (.inr fun k hk => ?_), fun _ => rfl⟩
      by_contra hbad
      exact hmissing (List.length_pos_of_mem (List.mem_filter.2 ⟨hk, by simpa using hbad⟩))

lemma exists_of_not_missing (h : isMissing env k = false) :
    ∃ v, env k = some v ∧ trim v.toList ≠ [] ∧ (toNumber v).positive = true := by
  unfold isMissing at h
  split at h
  · cases h
  · rename_i v hv
    rw [Bool.or_eq_false_iff, decide_eq_false_iff_not, Bool.not_eq_false'] at h
    exact ⟨v, hv, h⟩

def Limits.over (l : Limits) (n : ℤ) : RiskLimits := { l with maxMultiplier := n }

lemma potentialPayout_of_integer (h : l.maxMultiplier = .finite n) :
    potentialPayout l amount = .ok ((l.over n).potentialPayout amount) := by
  rw [potentialPayout, toBigInt_eq_ok.2 h]
  change Except.ok _ = _
  rw [RiskLimits.potentialPayout, Limits.over]
  congr 1
  grind

lemma capPayout_eq (payout : ℤ) (cap : Option ℤ) :
    capPayout l payout cap = .ok ((l.over n).capPayout payout cap) := by
  rw [capPayout]
  change Except.ok _ = _
  rw [RiskLimits.capPayout, Limits.over]
  congr 1
  grind

end VaultRun.Game.RiskService
