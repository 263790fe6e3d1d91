import VaultRun.Game.RiskService

/-!
The boot guard against the parsers it stands before: which environments it lets through whose ceilings are the
numbers that they denote.
-/

namespace VaultRun.Safety.RiskCeilings

open VaultRun.Data.Numeral VaultRun.Game.RiskService

/-- A ceiling is the number that its key denotes, whatever the default beside it. -/
def Denoted (env : Env) (k : String) (limit : ℤ) : Prop :=
  ∃ v, env k = some v ∧ denotes v = .finite limit ∧ ∀ d, envBig env k d = limit

structure Honoured (env : Env) : Prop where
  maxWinPerBet : Denoted env "RISK_MAX_WIN_PER_BET" (limits env).maxWinPerBet
  maxRoundExposure : Denoted env "RISK_MAX_ROUND_EXPOSURE" (limits env).maxRoundExposure
  maxBet : Denoted env "RISK_MAX_BET" (limits env).maxBet
  maxMultiplier : ∃ v, env "RISK_MAX_MULTIPLIER" = some v ∧ denotes v = (limits env).maxMultiplier ∧
    ∀ d, envNum env "RISK_MAX_MULTIPLIER" d = (limits env).maxMultiplier
  potentialPayout : ∀ amount, ∃ r, potentialPayout (limits env) amount = .ok r
  capPayout : ∀ payout cap, ∃ r, capPayout (limits env) payout cap = .ok r

/-- Three ceilings are written in digits only, and the fourth is an integer that a double holds. -/
structure Plain (env : Env) : Prop where
  digits : ∀ k ∈ ["RISK_MAX_WIN_PER_BET", "RISK_MAX_ROUND_EXPOSURE", "RISK_MAX_BET"], ∀ v, env k = some v →
    allDigits v.toList = true
  integer : ∀ v, env "RISK_MAX_MULTIPLIER" = some v →
    ∃ n : ℤ, denotes v = .finite n ∧ (Number.finite n).round = .finite n

variable {env : Env} {k v : String} {limit d : ℤ}

lemma denoted_iff (hv : env k = some v) : Denoted env k (envBig env k d) ↔ allDigits v.toList = true := by
  constructor
  · rintro ⟨v', -, -, hany⟩
    by_contra hdigits
    have hnext : envBig env k (d + 1) = envBig env k d := hany (d + 1)
    rw [envBig_of_not_digits hv hdigits, envBig_of_not_digits hv hdigits] at hnext
    omega
  · intro hdigits
    refine ⟨v, hv, ?_, fun d' => ?_⟩
    · rw [envBig_of_digits hv hdigits, denotes_of_digits hdigits]
    · rw [envBig_of_digits hv hdigits, envBig_of_digits hv hdigits]

lemma toNumber_of_denotes {n : ℤ} (hn : denotes v = .finite n) (hround : (Number.finite n).round = .finite n) :
    toNumber v = .finite n := by
  rw [toNumber, hn, hround]

lemma multiplier_iff (hv : env "RISK_MAX_MULTIPLIER" = some v) (hne : v ≠ "") :
    ((denotes v = (limits env).maxMultiplier ∧
        ∀ d, envNum env "RISK_MAX_MULTIPLIER" d = (limits env).maxMultiplier) ∧
      ∀ amount, ∃ r, potentialPayout (limits env) amount = .ok r) ↔
    ∃ n : ℤ, denotes v = .finite n ∧ (Number.finite n).round = .finite n := by
  constructor
  · rintro ⟨⟨hdenotes, hany⟩, hpayout⟩
    have hnan : toNumber v ≠ .nan := by
      intro hnan
      have h0 := hany (.finite 0)
      have h1 := hany (.finite 1)
      rw [envNum_of_nan hv (.inr hnan)] at h0 h1
      rw [← h1] at h0
      exact absurd h0 (by decide +kernel)
    have hnumber : (limits env).maxMultiplier = toNumber v := envNum_of_number hv hne hnan _
    obtain ⟨r, hr⟩ := hpayout 0
    cases hint : (limits env).maxMultiplier.toBigInt with
    | error e =>
        rw [potentialPayout, hint] at hr
        cases hr
    | ok n =>
        have hn : (limits env).maxMultiplier = .finite n := toBigInt_eq_ok.1 hint
        refine ⟨n, hdenotes.trans hn, ?_⟩
        calc (Number.finite n).round = (denotes v).round := by rw [hdenotes, hn]
          _ = toNumber v := rfl
          _ = .finite n := by rw [← hnumber, hn]
  · rintro ⟨n, hn, hround⟩
    have hnumber : toNumber v = .finite n := toNumber_of_denotes hn hround
    have hany (d : Number) : envNum env "RISK_MAX_MULTIPLIER" d = .finite n := by
      rw [envNum_of_number hv hne (by simp [hnumber]), hnumber]
    have hlimit : (limits env).maxMultiplier = .finite n := hany _
    refine ⟨⟨by rw [hlimit, hn], fun d => by rw [hlimit, hany]⟩, fun amount => ?_⟩
    exact ⟨_, potentialPayout_of_integer hlimit⟩

/-- An environment that the guard lets through in operator mode is honoured where, and only where, its ceilings
are plain. -/
theorem ceilings_honoured (hguard : assertRiskConfigForMode env = .ok ())
    (hmode : (env "WALLET_PROVIDER_TYPE").getD "internal" ≠ "internal")
    (hhatch : env "RISK_ALLOW_DEMO_DEFAULTS" ≠ some "true") : Honoured env ↔ Plain env := by
  have hset : ∀ k ∈ requiredRealmoneyRiskKeys, isMissing env k = false := by
    rcases assertRiskConfigForMode_ok.1 hguard with h | h | h
    · exact absurd h hmode
    · exact absurd h hhatch
    · exact h
  obtain ⟨win, hwin, -⟩ := exists_of_not_missing (hset "RISK_MAX_WIN_PER_BET" (by decide))
  obtain ⟨exposure, hexposure, -⟩ := exists_of_not_missing (hset "RISK_MAX_ROUND_EXPOSURE" (by decide))
  obtain ⟨bet, hbet, -⟩ := exists_of_not_missing (hset "RISK_MAX_BET" (by decide))
  obtain ⟨mult, hmult, hmultTrim, -⟩ := exists_of_not_missing (hset "RISK_MAX_MULTIPLIER" (by decide))
  have hne : mult ≠ "" := by
    rintro rfl
    exact hmultTrim rfl
  constructor
  · intro h
    refine ⟨fun k hk v hv => ?_, fun v hv => ?_⟩
    · simp only [List.mem_cons, List.not_mem_nil, or_false] at hk
      rcases hk with rfl | rfl | rfl
      · exact (denoted_iff hv).1 h.maxWinPerBet
      · exact (denoted_iff hv).1 h.maxRoundExposure
      · exact (denoted_iff hv).1 h.maxBet
    · obtain rfl : mult = v := Option.some.inj (hmult.symm.trans hv)
      obtain ⟨v', hv', hread⟩ := h.maxMultiplier
      obtain rfl : mult = v' := Option.some.inj (hmult.symm.trans hv')
      exact (multiplier_iff hmult hne).1 ⟨hread, h.potentialPayout⟩
  · intro h
    obtain ⟨hread, hpayout⟩ := (multiplier_iff hmult hne).2 (h.integer mult hmult)
    exact {
      maxWinPerBet := (denoted_iff hwin).2 (h.digits _ (by decide) win hwin)
      maxRoundExposure := (denoted_iff hexposure).2 (h.digits _ (by decide) exposure hexposure)
      maxBet := (denoted_iff hbet).2 (h.digits _ (by decide) bet hbet)
      maxMultiplier := ⟨mult, hmult, hread⟩
      potentialPayout := hpayout
      capPayout := fun payout cap => ⟨_, rfl⟩ }

def operator (win exposure bet multiplier : String) : Env
  | "WALLET_PROVIDER_TYPE" => some "operator"
  | "RISK_MAX_WIN_PER_BET" => some win
  | "RISK_MAX_ROUND_EXPOSURE" => some exposure
  | "RISK_MAX_BET" => some bet
  | "RISK_MAX_MULTIPLIER" => some multiplier
  | _ => none

lemma operator_plain : Plain (operator "500000" "9000000" "10000" "100") where
  digits k hk v hv := by
    simp only [List.mem_cons, List.not_mem_nil, or_false] at hk
    rcases hk with rfl | rfl | rfl <;> (rw [← Option.some.inj hv]; decide)
  integer v hv := ⟨100, by rw [← Option.some.inj hv]; decide +kernel⟩

theorem operator_honoured : Honoured (operator "500000" "9000000" "10000" "100") :=
  (ceilings_honoured (by decide +kernel) (by decide) (by decide)).2 operator_plain

/-- A largest bet of `1e3` passes the guard, and bets of up to a million are taken. -/
theorem exponent_ignored :
    assertRiskConfigForMode (operator "500000" "9000000" "1e3" "100") = .ok () ∧
      denotes "1e3" = .finite 1000 ∧ (limits (operator "500000" "9000000" "1e3" "100")).maxBet = 1000000 ∧
      ¬ Honoured (operator "500000" "9000000" "1e3" "100") := by
  refine ⟨by decide +kernel, by decide +kernel, by decide, fun h => ?_⟩
  have hdigits := (denoted_iff (show operator "500000" "9000000" "1e3" "100" "RISK_MAX_BET" = some "1e3" from
    rfl)).1 h.maxBet
  exact absurd hdigits (by decide)

/-- A multiplier with a fraction, or one too large for a double, passes the guard and leaves no worst case. -/
example :
    assertRiskConfigForMode (operator "500000" "9000000" "10000" "1000.5") = .ok () ∧
      potentialPayout (limits (operator "500000" "9000000" "10000" "1000.5")) 1 = .error () ∧
      assertRiskConfigForMode (operator "500000" "9000000" "10000" "1e400") = .ok () ∧
      potentialPayout (limits (operator "500000" "9000000" "10000" "1e400")) 1 = .error () := by
  decide +kernel

end VaultRun.Safety.RiskCeilings
