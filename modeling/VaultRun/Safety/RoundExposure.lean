import VaultRun.Game.Reservations
import VaultRun.Game.Scenario

/-!
The exposure cap of a round: what its open bets may cost never passes the cap, and neither does what they are
paid, as long as no win is worth more than was reserved for it and no bet joins once a win has been claimed.
-/

namespace VaultRun.Safety.RoundExposure

open VaultRun.Concurrency VaultRun.Data VaultRun.Game Program BetsService

/-- What a bet counts for in the exposure of a round in a currency. -/
def worth (P : Params) (roundId currency : ℕ) (b : Bet) : ℤ :=
  if b.slot.roundId = roundId ∧ b.currency = currency ∧ b.status ∈ [BetStatus.active, .reserving] then
    P.risk.potentialPayout b.amount
  else 0

def exposure (P : Params) (roundId currency : ℕ) (σ : State) : ℤ :=
  σ.bets.sum fun _ => worth P roundId currency

structure Wins (b : ℕ) (old new : Bet) (x : GameEntry) : Prop where
  before : x.before.bets.row b = some old
  active : old.status = .active
  after : x.after.bets.row b = some new
  cashedOut : new.status = .cashedOut

def won (roundId currency : ℕ) (x : GameEntry) : ℤ :=
  x.after.bets.sum fun b new =>
    if new.slot.roundId = roundId ∧ new.currency = currency ∧ new.status = .cashedOut ∧
        statusIn x.before b = some .active then new.payout
    else 0

def claimed (roundId currency : ℕ) (log : List GameEntry) : ℤ := (log.map (won roundId currency)).sum

def Claimed (roundId currency : ℕ) (log : List GameEntry) : Prop :=
  ∃ x ∈ log, ∃ b old new, Wins b old new x ∧ new.slot.roundId = roundId ∧ new.currency = currency

/-- The stake at the multiplier stays within the stake at the configured maximum, or that is past the caps. -/
def WithinMaximum (P : Params) (bet : Bet) (mult : ℕ) : Prop :=
  bet.amount * mult < 100 * (bet.amount * P.risk.maxMultiplier + 1) ∨
    min (bet.maxWinPerBet.getD P.risk.maxWinPerBet) P.risk.maxWinPerBet ≤ bet.amount * P.risk.maxMultiplier

/-- In the round and the currency, bets are cashed out within the maximum and are reserved before any win. -/
structure Meets (P : Params) (roundId currency : ℕ) (x : GameEntry) (earlier : List GameEntry) : Prop where
  within : ∀ i b m p, x.Issues i (Stmt.claimWin b m p) → ∀ old, x.before.bets.row b = some old →
    old.status = .active → old.slot.roundId = roundId → old.currency = currency → WithinMaximum P old m
  first : ∀ i (d : NewBet), x.Issues i (Stmt.createBet d) → d.slot.roundId = roundId → d.currency = currency →
    ¬ Claimed roundId currency earlier

structure Positive (risk : RiskLimits) : Prop where
  minBet : 0 < risk.minBet
  maxWinPerBet : 0 < risk.maxWinPerBet
  maxMultiplier : 0 < risk.maxMultiplier
  maxRoundExposure : 0 < risk.maxRoundExposure

@[reducible] def Checked (a : PlaceBet) : Prop := ∀ l ∈ a.limits, 0 ≤ l.minBet

@[reducible] def checked : GameRule where
  act _ _ _ _ := True
  kill _ _ := True
  env _ e _ := ∀ a ∈ e.placed, Checked a

structure Capped (P : Params) (σ : State) : Prop where
  amounts : ∀ b x, σ.bets.row b = some x → 0 ≤ x.amount
  exposure : ∀ roundId currency, exposure P roundId currency σ ≤ P.risk.maxRoundExposure

structure CapInv (P : Params) (w : GameWorld) : Prop where
  locks : Holds w
  amounts : ∀ b x, w.state.bets.row b = some x → 0 ≤ x.amount
  seen : ∀ j n bets, ¬ Killed j w.log → (sight j w.log).locked = some n →
    (sight j w.log).roundBets = some bets → ∀ currency, exposure P n currency w.state ≤
      total (P.risk.potentialPayout ·.amount) (bets.filter (·.2.currency = currency))
  found : ∀ j b bet, (sight j w.log).found = some (b, bet) → w.state.OnTerms b bet.terms
  capped : ∀ n currency, exposure P n currency w.state ≤ P.risk.maxRoundExposure
  claims : ∀ x ∈ w.log, ∀ i b m p old new, x.Issues i (Stmt.claimWin b m p) → Wins b old new x →
    (new.payout ≤ P.risk.potentialPayout old.amount ↔ WithinMaximum P old m)
  total : ∀ n currency, Throughout (Meets P n currency) w.log →
    exposure P n currency w.state + claimed n currency w.log ≤ P.risk.maxRoundExposure

section Worth

variable {P : Params} {n q : ℕ} {x : Bet} {d : BetData} {now : ℕ} {a : ℤ}

lemma potentialPayout_nonneg (hP : Positive P.risk) (ha : 0 ≤ a) : 0 ≤ P.risk.potentialPayout a :=
  le_min (Int.mul_nonneg ha hP.maxMultiplier.le) hP.maxWinPerBet.le

lemma worth_nonneg (hP : Positive P.risk) (hx : 0 ≤ x.amount) : 0 ≤ worth P n q x := by
  unfold worth
  split
  · exact potentialPayout_nonneg hP hx
  · exact le_rfl

lemma worth_apply (hP : Positive P.risk) (hx : 0 ≤ x.amount)
    (hst : (d.apply now x).status ∈ [BetStatus.active, .reserving] → x.status ∈ [BetStatus.active, .reserving]) :
    worth P n q (d.apply now x) ≤ worth P n q x := by
  by_cases hopen : (d.apply now x).slot.roundId = n ∧ (d.apply now x).currency = q ∧
      (d.apply now x).status ∈ [BetStatus.active, .reserving]
  · have hold : x.slot.roundId = n ∧ x.currency = q ∧ x.status ∈ [BetStatus.active, .reserving] :=
      ⟨hopen.1, hopen.2.1, hst hopen.2.2⟩
    rw [worth, worth, if_pos hopen, if_pos hold]
    exact le_rfl
  · rw [worth, if_neg hopen]
    exact worth_nonneg hP hx

lemma total_onRound (σ : State) (n q : ℕ) :
    total (P.risk.potentialPayout ·.amount)
      ((σ.bets.findMany ((BetWhere.onRound n).holds σ.rounds)).filter (·.2.currency = q)) =
      exposure P n q σ := by
  rw [total_findMany (q := fun b => b.currency = q)]
  refine Table.sum_congr fun k => ?_
  cases σ.bets.row k with
  | none => rfl
  | some b =>
      refine if_congr ?_ rfl rfl
      simp only [BetWhere.holds]
      grind

lemma capPayout_le_iff (hx : 0 ≤ x.amount) (mult : ℕ) :
    P.risk.capPayout (floorPayout x.amount mult) x.maxWinPerBet ≤ P.risk.potentialPayout x.amount ↔
      WithinMaximum P x mult := by
  have hmul : 0 ≤ x.amount * mult := Int.mul_nonneg hx (Int.natCast_nonneg _)
  have hfloor : floorPayout x.amount mult = x.amount * mult / 100 := Int.tdiv_eq_ediv_of_nonneg hmul
  rw [RiskLimits.capPayout, RiskLimits.potentialPayout, hfloor, WithinMaximum]
  omega

end Worth

section Step

variable {P : Params} {o : Oracle} {i n q : ℕ} {s : Stmt} {r : game.Reply s} {σ σ' : State} {w : GameWorld}

lemma open_before {b now : ℕ} {d : BetData} {x : Bet} {wh : BetWhere} {rounds : Records Round Round.seedId}
    (hs : (Stmt.updateBets wh d).Issued) (hw : wh.holds rounds b x)
    (hst : (d.apply now x).status ∈ [BetStatus.active, .reserving]) : x.status ∈ [BetStatus.active, .reserving] := by
  obtain ⟨p, hp⟩ := hs rfl
  cases hp with
  | stampDebit id tx => exact hst
  | _ => simp_all [BetWhere.holds]

lemma open_before_byId {b now : ℕ} {d : BetData} {x : Bet} (hs : (Stmt.updateBet b d).Issued)
    (hst : (d.apply now x).status ∈ [BetStatus.active, .reserving]) : x.status ∈ [BetStatus.active, .reserving] := by
  obtain ⟨p, hp⟩ := hs rfl
  cases hp with
  | paid id tx => exact hst
  | _ => simp_all

variable (hP : Positive P.risk) (hpos : ∀ b x, σ.bets.row b = some x → 0 ≤ x.amount)
  (he : exec P o i s σ = some (r, σ')) (hs : s.Issued)
include hP hpos he hs

lemma worth_row (hno : ∀ d, s ≠ .createBet d) (b : ℕ) :
    (σ'.bets.row b).elim 0 (worth P n q) ≤ (σ.bets.row b).elim 0 (worth P n q) := by
  rcases exec_betChange he b with hk | ⟨-, -, -⟩ | ⟨hold, hw, hrow⟩ | ⟨hold, hrow⟩ | hdel
  · rw [hk]
  · exact absurd rfl (hno _)
  · rw [hrow, hold]
    exact worth_apply hP (hpos b _ hold) (open_before hs hw)
  · rw [hrow, hold]
    exact worth_apply hP (hpos b _ hold) (open_before_byId hs)
  · rw [hdel]
    cases hold : σ.bets.row b with
    | none => exact le_rfl
    | some x => exact worth_nonneg hP (hpos b x hold)

lemma exposure_le (hno : ∀ d, s ≠ .createBet d) : exposure P n q σ' ≤ exposure P n q σ :=
  Table.sum_le_sum fun b => worth_row hP hpos he hs hno b

/-- What is claimed within what was reserved for it comes out of the exposure. -/
lemma exposure_won (hno : ∀ d, s ≠ .createBet d)
    (hwin : ∀ b old new, Wins b old new (.answered i s r σ σ' : GameEntry) → new.slot.roundId = n →
      new.currency = q → new.payout ≤ P.risk.potentialPayout old.amount) :
    exposure P n q σ' + won n q (.answered i s r σ σ') ≤ exposure P n q σ := by
  rw [exposure, won, Entry.after, Entry.before, ← Table.sum_add]
  refine Table.sum_le_sum fun b => ?_
  have hworth := worth_row (n := n) (q := q) hP hpos he hs hno b
  cases hnew : σ'.bets.row b with
  | none =>
      rw [hnew] at hworth
      exact hworth
  | some new =>
      rw [hnew] at hworth
      dsimp only [Option.elim_some] at hworth ⊢
      split
      · rename_i hin
        obtain ⟨hn, hc, hcash, hactive⟩ := hin
        obtain ⟨old, hold, hst⟩ := Option.map_eq_some_iff.1 hactive
        have hterms : new.terms = old.terms := by
          obtain ⟨x, hx, ht, -⟩ := exec_later_bet he hs (σ.bets.fresh b old hold) hnew
          rw [ht, Option.some.inj (hx.symm.trans hold)]
        have hpay := hwin b old new ⟨hold, hst, hnew, hcash⟩ hn hc
        have hround : old.slot.roundId = n := (congrArg (·.slot.roundId) hterms).symm.trans hn
        have hccy : old.currency = q := (congrArg (·.currency) hterms).symm.trans hc
        have hzero : worth P n q new = 0 := if_neg (by simp [hcash])
        have hreserved : worth P n q old = P.risk.potentialPayout old.amount :=
          if_pos ⟨hround, hccy, by simp [hst]⟩
        rw [hold, hzero, Option.elim_some, hreserved]
        omega
      · rw [add_zero]
        exact hworth

omit hP hpos hs in
lemma exposure_create {d : NewBet} (hd : s = .createBet d) :
    exposure P n q σ' = exposure P n q σ ∨
      exposure P n q σ' = exposure P n q σ + worth P n q (d.row σ.now) := by
  subst hd
  have hrow (b : ℕ) : σ'.bets.row b = σ.bets.row b ∨ b = σ.bets.next ∧ σ'.bets.row b = some (d.row σ.now) := by
    cases exec_betChange he b with
    | kept h => exact .inl h
    | created hb _ h => exact .inr ⟨hb, h⟩
  have hchange : exposure P n q σ' + (σ.bets.row σ.bets.next).elim 0 (worth P n q) =
      exposure P n q σ + (σ'.bets.row σ.bets.next).elim 0 (worth P n q) :=
    Table.sum_change fun b hb => (hrow b).resolve_right fun h => hb h.1
  rw [σ.bets.row_next, Option.elim_none, add_zero] at hchange
  rcases hrow σ.bets.next with h | ⟨-, h⟩
  · rw [h, σ.bets.row_next] at hchange
    exact .inl (by simpa using hchange)
  · rw [h] at hchange
    exact .inr hchange

end Step

section Invariant

variable {P : Params} {o : Oracle} {i n q : ℕ} {s : Stmt} {r : game.Reply s} {σ σ' : State} {w : GameWorld}
  {a : PlaceBet} {d : NewBet}

lemma amount_nonneg (hP : Positive P.risk) {amt : ℤ} (ha : Checked a) (h : P.risk.checkBetAmount amt a.limits) :
    0 ≤ amt := by
  have hmin := hP.minBet
  rw [RiskLimits.checkBetAmount] at h
  cases hl : a.limits with
  | none =>
      rw [hl] at h
      simp only [Option.getD_none, decide_eq_true_eq] at h
      omega
  | some l =>
      have hl' := ha l hl
      rw [hl] at h
      simp only [Option.getD_some, decide_eq_true_eq] at h
      omega

lemma CapInv.fits (h : CapInv P w) (hlive : ¬ Killed i w.log) (hd : ReservePassed P a (sight i w.log) d) :
    exposure P d.slot.roundId d.currency w.state + P.risk.potentialPayout d.amount ≤ P.risk.maxRoundExposure := by
  obtain ⟨bets, hb, hcheck, -⟩ := hd.bets
  have hseen := h.seen i _ bets hlive hd.locked hb d.currency
  rw [RiskLimits.checkRoundExposure, decide_eq_true_eq] at hcheck
  omega

lemma worth_row_le (hP : Positive P.risk) (hd : 0 ≤ d.amount) (now : ℕ) :
    worth P n q (d.row now) ≤ P.risk.potentialPayout d.amount := by
  unfold worth
  split
  · exact le_rfl
  · exact potentialPayout_nonneg hP hd

lemma worth_row_elsewhere (now : ℕ) (h : ¬ (d.slot.roundId = n ∧ d.currency = q)) :
    worth P n q (d.row now) = 0 :=
  if_neg fun h' => h ⟨h'.1, h'.2.1⟩

variable (hP : Positive P.risk) (h : CapInv P w) (hlive : ¬ Killed i w.log)
  (hd : (sight i w.log).Due P Checked s) (he : exec P o i s w.state = some (r, σ'))
include hP h hlive hd he

omit hlive in
lemma CapInv.amounts_exec (b : ℕ) (x : Bet) (hx : σ'.bets.row b = some x) : 0 ≤ x.amount := by
  rcases exec_betChange he b with hk | ⟨-, -, hrow⟩ | ⟨hold, -, hrow⟩ | ⟨hold, hrow⟩ | hdel
  · exact h.amounts b x (hk ▸ hx)
  · obtain ⟨a, ha, hpassed⟩ := hd.reserve _ rfl
    obtain rfl := Option.some.inj (hrow.symm.trans hx)
    exact amount_nonneg hP ha hpassed.amount
  · obtain rfl := Option.some.inj (hrow.symm.trans hx)
    have hamount := h.amounts b _ hold
    exact hamount
  · obtain rfl := Option.some.inj (hrow.symm.trans hx)
    have hamount := h.amounts b _ hold
    exact hamount
  · rw [hdel] at hx
    cases hx

lemma CapInv.capped_exec : exposure P n q σ' ≤ P.risk.maxRoundExposure := by
  by_cases hno : ∀ d, s ≠ .createBet d
  · exact (exposure_le hP h.amounts he hd.issued hno).trans (h.capped n q)
  · obtain ⟨d, rfl⟩ := not_forall_not.1 hno
    obtain ⟨a, ha, hpassed⟩ := hd.reserve d rfl
    have hfits := h.fits hlive hpassed
    rcases exposure_create (P := P) (n := n) (q := q) he rfl with heq | heq
    · exact heq ▸ h.capped n q
    · by_cases hin : d.slot.roundId = n ∧ d.currency = q
      · obtain ⟨rfl, rfl⟩ := hin
        have hle := worth_row_le (n := d.slot.roundId) (q := d.currency) hP (amount_nonneg hP ha hpassed.amount)
          w.state.now
        omega
      · rw [worth_row_elsewhere _ hin] at heq
        have := h.capped n q
        omega

/-- The exposure of a round that another call has locked does not grow. -/
lemma CapInv.exposure_locked {j : ℕ} (hj : ¬ Killed j w.log) (hij : j ≠ i) (hl : (sight j w.log).locked = some n) :
    exposure P n q σ' ≤ exposure P n q w.state := by
  by_cases hno : ∀ d, s ≠ .createBet d
  · exact exposure_le hP h.amounts he hd.issued hno
  · obtain ⟨d, rfl⟩ := not_forall_not.1 hno
    obtain ⟨a, ha, hpassed⟩ := hd.reserve d rfl
    have hround : ¬ (d.slot.roundId = n ∧ d.currency = q) := by
      rintro ⟨rfl, -⟩
      exact hij (h.locks.unique hj hlive hl hpassed.locked)
    rcases exposure_create (P := P) (n := n) (q := q) he rfl with heq | heq
    · exact heq.le
    · rw [worth_row_elsewhere _ hround] at heq
      omega

lemma CapInv.seen_exec (j m : ℕ) (bets : List (ℕ × Bet)) (hj : ¬ Killed j (w.answer i s r σ').log)
    (hl : (sight j (w.answer i s r σ').log).locked = some m)
    (hb : (sight j (w.answer i s r σ').log).roundBets = some bets) (q : ℕ) :
    exposure P m q σ' ≤ BetsService.total (P.risk.potentialPayout ·.amount) (bets.filter (·.2.currency = q)) := by
  rw [World.answer_log, killed_answered] at hj
  rw [World.answer_log] at hl hb
  by_cases hij : j = i
  · subst hij
    rw [sight_self] at hl hb
    have hlearns := (sight j w.log).learns s r
    generalize (sight j w.log).learn s r = m' at hl hb hlearns
    cases hlearns with
    | same hc hend =>
        exact (exposure_le hP h.amounts he hd.issued hc).trans (h.seen j m bets hj hl hb q)
    | locked n => cases hb
    | unlocked => cases hb
    | @round k read hl' =>
        obtain rfl := Option.some.inj hb
        obtain rfl := Option.some.inj (hl'.symm.trans hl)
        have hp := perform_of_ok he rfl
        obtain ⟨hfound, rfl⟩ : w.state.bets.findMany ((BetWhere.onRound k).holds w.state.rounds) = read ∧
            w.state = σ' := by
          simpa [perform] using hp
        rw [← hfound]
        exact (total_onRound w.state k q).ge
    | session | found =>
        refine (exposure_le hP h.amounts he hd.issued fun d hd' => ?_).trans (h.seen j m bets hj hl hb q)
        cases hd'
  · rw [sight_answered (Ne.symm hij)] at hl hb
    exact (h.exposure_locked hP hlive hd he hj hij hl).trans (h.seen j m bets hj hl hb q)

omit hP hlive in
lemma CapInv.found_exec (j b : ℕ) (bet : Bet) (hf : (sight j (w.answer i s r σ').log).found = some (b, bet)) :
    σ'.OnTerms b bet.terms := by
  have hlater := exec_later he hd.issued
  rw [World.answer_log] at hf
  by_cases hij : j = i
  · subst hij
    rw [sight_self] at hf
    have hlearns := (sight j w.log).learns s r
    generalize (sight j w.log).learn s r = m' at hf hlearns
    cases hlearns with
    | found x =>
        have hp := perform_of_ok he rfl
        obtain ⟨hrow, rfl⟩ : w.state.bets.findUnique _ = x ∧ w.state = σ' := by simpa [perform] using hp
        exact State.onTerms_of_row (Records.findUnique_eq_some.1 (hrow.trans hf)).1
    | _ => exact (h.found j b bet hf).later hlater
  · rw [sight_answered (Ne.symm hij)] at hf
    exact (h.found j b bet hf).later hlater

end Invariant

section Wins

variable {P : Params} {o : Oracle} {i b n q : ℕ} {s : Stmt} {r : game.Reply s} {σ σ' : State}
  {x : GameEntry} {log : List GameEntry} {old new : Bet}

lemma Wins.issues (h : Wins b old new (.answered i s r σ σ' : GameEntry)) (he : exec P o i s σ = some (r, σ'))
    (hs : s.Issued) : ∃ m p, s = .claimWin b m p ∧ new.payout = p := by
  have hold : σ.bets.row b = some old := h.before
  have hnew : σ'.bets.row b = some new := h.after
  have hst := h.active
  rcases exec_betChange he b with hk | ⟨rfl, -, -⟩ | ⟨hold', hw, hrow⟩ | ⟨hold', hrow⟩ | hdel
  · obtain rfl := Option.some.inj (hnew.symm.trans (hk.trans hold))
    rw [h.cashedOut] at hst
    cases hst
  · rw [σ.bets.row_next] at hold
    cases hold
  · obtain rfl := Option.some.inj (hold'.symm.trans hold)
    obtain rfl := Option.some.inj (hrow.symm.trans hnew)
    have hcash := h.cashedOut
    obtain ⟨q, hq⟩ := hs rfl
    cases hq with
    | cashOut id m p =>
        obtain rfl : id = b := by simp_all [BetWhere.holds]
        exact ⟨m, p, rfl, rfl⟩
    | _ => simp_all [BetWhere.holds]
  · obtain rfl := Option.some.inj (hold'.symm.trans hold)
    obtain rfl := Option.some.inj (hrow.symm.trans hnew)
    have hcash := h.cashedOut
    obtain ⟨q, hq⟩ := hs rfl
    cases hq <;> simp_all
  · rw [hdel] at hnew
    cases hnew

lemma won_eq_zero (h : ∀ b old new, ¬ Wins b old new x) : won n q x = 0 := by
  refine Table.sum_eq_zero fun b new hnew => if_neg fun hin => ?_
  obtain ⟨old, hold, hst⟩ := Option.map_eq_some_iff.1 hin.2.2.2
  exact h b old new ⟨hold, hst, hnew, hin.2.2.1⟩

lemma claimed_eq_zero (h : ¬ Claimed n q log) : claimed n q log = 0 := by
  induction log with
  | nil => rfl
  | cons x log ih =>
      have hlog : ¬ Claimed n q log := by
        rintro ⟨y, hy, hc⟩
        exact h ⟨y, List.mem_cons_of_mem _ hy, hc⟩
      have hx : won n q x = 0 := by
        refine Table.sum_eq_zero fun b new hnew => if_neg fun hin => ?_
        obtain ⟨old, hold, hst⟩ := Option.map_eq_some_iff.1 hin.2.2.2
        exact h ⟨x, List.mem_cons_self, b, old, new, ⟨hold, hst, hnew, hin.2.2.1⟩, hin.1, hin.2.1⟩
      have hsum : claimed n q (x :: log) = won n q x + claimed n q log := by simp [claimed]
      rw [hsum, hx, ih hlog, add_zero]

lemma claimed_cons : claimed n q (x :: log) = won n q x + claimed n q log := by simp [claimed]

lemma not_wins_of_same (h : x.after.bets = x.before.bets) : ¬ Wins b old new x := by
  intro hw
  have hsame : new = old := Option.some.inj (hw.after.symm.trans (h ▸ hw.before))
  have hst := hw.active
  rw [← hsame, hw.cashedOut] at hst
  cases hst

lemma meets_read (hs : s.writesBets = false) : Meets P n q (.answered i s r σ σ') log where
  within := by
    rintro j b m p ⟨r', before, after, heq⟩
    cases heq
    cases hs
  first := by
    rintro j d ⟨r', before, after, heq⟩
    cases heq
    cases hs

lemma meets_moved {e : Event} : Meets P n q (.moved i e σ σ') log where
  within := by
    rintro j b m p ⟨r', before, after, heq⟩
    cases heq
  first := by
    rintro j d ⟨r', before, after, heq⟩
    cases heq

end Wins

section Invariant

variable {P : Params} {o : Oracle} {i n q : ℕ} {s : Stmt} {r : game.Reply s} {σ' : State} {w : GameWorld}

variable (hP : Positive P.risk) (h : CapInv P w) (hlive : ¬ Killed i w.log)
  (hd : (sight i w.log).Due P Checked s) (he : exec P o i s w.state = some (r, σ'))
include hP h hlive hd he

omit hP hlive in
lemma CapInv.payout_le_iff {b m : ℕ} {p : ℤ} {old new : Bet} (hs : s = .claimWin b m p)
    (hw : Wins b old new (.answered i s r w.state σ')) :
    new.payout ≤ P.risk.potentialPayout old.amount ↔ WithinMaximum P old m := by
  obtain ⟨m', p', hs', hpay⟩ := hw.issues he hd.issued
  obtain ⟨bet, hf, hp⟩ := hd.claim b m p hs
  obtain ⟨-, rfl⟩ : m = m' ∧ p = p' := by simpa using hs.symm.trans hs'
  have hterms : old.terms = bet.terms := (h.found i b bet hf).2 old hw.before
  have hamount : old.amount = bet.amount := congrArg (·.amount) hterms
  have hcap : old.maxWinPerBet = bet.maxWinPerBet := congrArg (·.maxWinPerBet) hterms
  rw [hpay, hp, ← hamount, ← hcap]
  exact capPayout_le_iff (h.amounts b old hw.before) m

lemma CapInv.total_exec (hmeets : Throughout (Meets P n q) (w.answer i s r σ').log) :
    exposure P n q σ' + claimed n q (w.answer i s r σ').log ≤ P.risk.maxRoundExposure := by
  obtain ⟨hx, hlog⟩ := hmeets
  have htotal := h.total n q hlog
  rw [World.answer_log, claimed_cons]
  by_cases hno : ∀ d, s ≠ .createBet d
  · have hwon := exposure_won (n := n) (q := q) hP h.amounts he hd.issued hno fun b old new hw hn hc => ?_
    · omega
    · obtain ⟨m, p, hs, -⟩ := hw.issues he hd.issued
      refine (h.payout_le_iff hd he hs hw).2 ?_
      have hissues : (Entry.answered i s r w.state σ' : GameEntry).Issues i (Stmt.claimWin b m p) := by
        subst hs
        exact ⟨_, _, _, rfl⟩
      obtain ⟨y, hy, hterms, -⟩ := exec_later_bet he hd.issued (w.state.bets.fresh b old hw.before) hw.after
      obtain rfl := Option.some.inj (hy.symm.trans hw.before)
      exact hx.within i b m p hissues y hw.before hw.active ((congrArg (·.slot.roundId) hterms).symm.trans hn)
        ((congrArg (·.currency) hterms).symm.trans hc)
  · obtain ⟨d, rfl⟩ := not_forall_not.1 hno
    have hzero : won n q (.answered i (.createBet d) r w.state σ') = 0 := by
      refine won_eq_zero fun b old new hw => ?_
      obtain ⟨m, p, hs, -⟩ := hw.issues he hd.issued
      cases hs
    rw [hzero, zero_add]
    by_cases hin : d.slot.roundId = n ∧ d.currency = q
    · rw [claimed_eq_zero (hx.first i d ⟨_, _, _, rfl⟩ hin.1 hin.2), add_zero]
      exact h.capped_exec hP hlive hd he
    · rcases exposure_create (P := P) (n := n) (q := q) he rfl with heq | heq
      · omega
      · rw [worth_row_elsewhere _ hin] at heq
        omega

lemma CapInv.answer : CapInv P (w.answer i s r σ') where
  locks := h.locks.answer he
  amounts := h.amounts_exec hP hd he
  seen := h.seen_exec hP hlive hd he
  found := h.found_exec hd he
  capped _ _ := h.capped_exec hP hlive hd he
  claims := by
    intro x hx j b m p old new hissues hw
    rcases List.mem_cons.1 hx with rfl | hx
    · obtain ⟨r', before, after, heq⟩ := hissues
      exact h.payout_le_iff hd he (Entry.answered.inj heq).2.1 hw
    · exact h.claims x hx j b m p old new hissues hw
  total _ _ := h.total_exec hP hlive hd he

omit hP hlive hd he in
lemma CapInv.quiet {x : GameEntry} {σ : State} (hlocks : Holds ⟨σ, x :: w.log⟩) (hbefore : x.before = w.state)
    (hafter : x.after = σ) (hbets : σ.bets = w.state.bets) (hno : ∀ j t, ¬ x.Issues j t) :
    CapInv P ⟨σ, x :: w.log⟩ := by
  have hsight (j : ℕ) : sight j (x :: w.log) = sight j w.log := by
    cases x with
    | answered j' s r b a => exact absurd ⟨r, b, a, rfl⟩ (hno j' s)
    | moved | killed => rfl
  have hkilled {j : ℕ} (hj : ¬ Killed j (x :: w.log)) : ¬ Killed j w.log :=
    fun ⟨b, a, hmem⟩ => hj ⟨b, a, List.mem_cons_of_mem _ hmem⟩
  have hexposure (n q : ℕ) : exposure P n q σ = exposure P n q w.state := by rw [exposure, exposure, hbets]
  have hzero (n q : ℕ) : won n q x = 0 :=
    won_eq_zero fun b old new => not_wins_of_same (by rw [hbefore, hafter, hbets])
  refine ⟨hlocks, ?_, ?_, ?_, ?_, ?_, ?_⟩
  · intro b y hy
    exact h.amounts b y (hbets ▸ hy)
  · intro j m bets hj hl hb q
    rw [hsight] at hl hb
    rw [hexposure]
    exact h.seen j m bets (hkilled hj) hl hb q
  · intro j b bet hf
    rw [hsight] at hf
    have hterms := h.found j b bet hf
    rw [State.OnTerms] at hterms ⊢
    rw [hbets]
    exact hterms
  · intro m q
    rw [hexposure]
    exact h.capped m q
  · intro y hy j b m p old new hissues hw
    rcases List.mem_cons.1 hy with rfl | hy
    · exact absurd hissues (hno j _)
    · exact h.claims y hy j b m p old new hissues hw
  · intro m q hmeets
    rw [claimed_cons, hzero, hexposure, zero_add]
    exact h.total m q hmeets.2

end Invariant

section Runs

variable {P : Params} {σ : State} {c : GameConfig}

lemma capInv_initial (hσ : Capped P σ) : CapInv P (⟨σ, []⟩ : GameWorld) where
  locks _ _ _ h := by cases h
  amounts := hσ.amounts
  seen _ _ _ _ h := by cases h
  found _ _ _ h := by cases h
  capped := hσ.exposure
  claims := by simp
  total n q _ := by
    have := hσ.exposure n q
    simpa [claimed] using this

/-- In every run the open bets of a round are within the cap, and a claimed payout is within what was reserved
for it exactly if the bet is cashed out within the configured maximum; where every bet of the round is, and none
is reserved once a win has been claimed, the claimed payouts together are within the cap. -/
theorem exposure_capped (hP : Positive P.risk) (hσ : Capped P σ)
    (h : checked.Reaches (system P) (Config.initial σ) c) (roundId currency : ℕ) :
    exposure P roundId currency c.world.state ≤ P.risk.maxRoundExposure ∧
    (∀ x ∈ c.world.log, ∀ i b m p old new, x.Issues i (Stmt.claimWin b m p) → Wins b old new x →
      (new.payout ≤ P.risk.potentialPayout old.amount ↔ WithinMaximum P old m)) ∧
    (Throughout (Meets P roundId currency) c.world.log →
      claimed roundId currency c.world.log ≤ P.risk.maxRoundExposure) := by
  have hgood := good_of_discipline (M := system P) (m := ({} : Sight)) (φ := fun _ => Sight.Due P Checked)
    (Q := fun _ _ _ => True) (R := checked.alive)
    (fun n e w a p hr he => environment_heeds he (fun a ha => hr a (by simp [ha, Event.placed])) {})
    (fun i o s w r a (hw : CapInv P w) ho hd he => hw.answer hP ho.2 hd he)
    (fun n e w a p hw _ he => by
      have htables := environment_tables he
      exact hw.quiet (hw.locks.move he) rfl rfl htables.bets (by simp [Entry.Issues]))
    (fun i w hw _ => hw.quiet (hw.locks.kill i) rfl rfl rfl (by simp [Entry.Issues]))
    (capInv_initial hσ) h.alive.1
  have hinv : CapInv P c.world := hgood.inv
  refine ⟨hinv.capped roundId currency, hinv.claims, fun hmeets => ?_⟩
  have hnonneg : 0 ≤ exposure P roundId currency c.world.state :=
    Table.sum_nonneg fun b x hx => worth_nonneg hP (hinv.amounts b x hx)
  have htotal := hinv.total roundId currency hmeets
  omega

open Scenario

lemma positive_params : Positive (params false false).risk := ⟨by decide, by decide, by decide, by decide⟩

lemma capped_staked : Capped (params false false) (staked .running .active) where
  amounts b x hx := by
    change (if b = 0 then some (Scenario.bet .active) else none) = some x at hx
    split_ifs at hx
    obtain rfl := Option.some.inj hx
    decide
  exposure n q := by
    change worth (params false false) n q (Scenario.bet .active) + 0 ≤ _
    unfold worth
    split <;> decide

/-- A bet of 100 is cashed out at 1.50, and all that is claimed is within the cap. -/
theorem exposure_capped_at_150 : ∃ c : GameConfig,
    checked.Reaches (system (params false false)) (Config.initial (staked .running .active)) c ∧
      claimed 0 0 c.world.log = 150 ∧ claimed 0 0 c.world.log ≤ (params false false).risk.maxRoundExposure := by
  have hrun : (system (params false false)).run (Config.initial (staked .running .active))
      (.env (.call (.cashOut 0 1 .A (some 150))) :: acts 0 5) = some _ := rfl
  have hreach := Rule.reaches_of_run (R := checked) (by decide) hrun
  refine ⟨_, hreach, rfl, (exposure_capped positive_params capped_staked hreach 0 0).2.2 ⟨⟨?_, ?_⟩, ?_⟩⟩
  · rintro i b m p ⟨r, before, after, heq⟩ old hold - - -
    obtain ⟨hid, hdata⟩ := Stmt.updateBets.inj (Entry.answered.inj heq).2.1
    obtain rfl : 0 = b := Option.some.inj (BetWhere.mk.inj hid).1
    obtain rfl : 150 = m := Option.some.inj (BetData.mk.inj hdata).2.1
    obtain rfl := Option.some.inj hold
    exact .inl (by decide)
  · rintro i d ⟨r, before, after, heq⟩
    cases heq
  · exact ⟨meets_read rfl, meets_read rfl, meets_read rfl, meets_read rfl, meets_moved, trivial⟩

/-- A house that reserves up to 100 times the stake, over a round that would crash at 200. -/
def tight : Params :=
  { params false false with
    risk := { minBet := 1, maxBet := 1000, maxWinPerBet := 100000, maxMultiplier := 100, maxRoundExposure := 10000 } }

def longRound : State :=
  { idle .betting with
    rounds := (∅ : Records Round Round.seedId).create { Scenario.round .betting with crashPoint := 20000 } rfl
    nodes := fun _ => ⟨some ⟨0, 0, .betting, 5000, none, 20000⟩, some (0, .running), true, []⟩ }

lemma capped_longRound : Capped tight longRound where
  amounts b x hx := by
    change (none : Option Bet) = some x at hx
    cases hx
  exposure n q := by
    change (0 : ℤ) ≤ 10000
    decide

/-- The one bet on the round fills the cap, and is cashed out at 150 times its stake. -/
theorem cashed_out_past_the_cap : Positive tight.risk ∧ Capped tight longRound ∧ ∃ c : GameConfig,
    checked.Reaches (system tight) (Config.initial longRound) c ∧
      tight.risk.maxRoundExposure < claimed 0 0 c.world.log ∧
      ∃ x ∈ c.world.log, ∃ b old new, Wins b old new x ∧ tight.risk.potentialPayout old.amount < new.payout := by
  have hrun : (system tight).run (Config.initial longRound)
      (.env (.call (.placeBet { node := 0, userId := 1, panel := .A, amount := 100 })) :: acts 0 8 ++
        .env (.timer 0) :: acts 1 7 ++ .env (.call (.cashOut 0 1 .A (some 15000))) :: acts 2 5) = some _ := rfl
  have hreach := Rule.reaches_of_run (R := checked) (by decide +kernel) hrun
  refine ⟨⟨by decide, by decide, by decide, by decide⟩, capped_longRound, _, hreach, by decide, _,
    List.mem_cons_self, 0, _, _, ⟨rfl, rfl, rfl, rfl⟩, by decide⟩

end Runs

end VaultRun.Safety.RoundExposure
