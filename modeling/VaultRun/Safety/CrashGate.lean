import VaultRun.Game.Claims
import VaultRun.Game.Scenario

/-!
No win at or above the crash: a bet is cashed out only below the crash point of its own round, which
the call has just read as running, and no bet is both busted and cashed out.
-/

namespace VaultRun.Safety.CrashGate

open VaultRun.Concurrency VaultRun.Game Program

/-- Call `i` moves bet `b` from `old` to `cashed_out` at the multiplier `m`. -/
def CashesOut (i b m : ℕ) (old : Bet) (x : GameEntry) : Prop :=
  ∃ w d r before after new, x = .answered i (.updateBets w d) r before after ∧
    d.cashoutMult = some m ∧ before.bets.row b = some old ∧ old.status ≠ .cashedOut ∧
    after.bets.row b = some new ∧ new.status = .cashedOut

def Busts (b : ℕ) (x : GameEntry) : Prop :=
  ∃ old new, x.before.bets.row b = some old ∧ old.status ≠ .busted ∧
    x.after.bets.row b = some new ∧ new.status = .busted

/-- A cash-out as it should be. -/
def Gated (x : GameEntry) (earlier : List GameEntry) : Prop :=
  ∀ i b m old, CashesOut i b m old x →
    old.status = .active ∧ BelowCrash m old.slot.roundId x.before ∧
      ReadRunning m old.slot.roundId (lastBy i earlier)

structure CrashGateInv (w : GameWorld) : Prop where
  gated : Throughout Gated w.log
  decided : ∀ x ∈ w.log, ∀ b, Busts b x ∨ (∃ i m old, CashesOut i b m old x) → w.state.Over b
  exclusive : ∀ b, ∀ x ∈ w.log, ∀ y ∈ w.log, Busts b x → ∀ i m old, ¬ CashesOut i b m old y

def crashGate (P : Params) : Contract (system P) where
  rule := .free
  inv := CrashGateInv
  stmts := Stmt.Issued
  pre i s w := ∀ b m p, s = .claimWin b m p → ∃ d, GatePassed i b m d w
  ended _ _ _ := True

variable {P : Params} {i b m : ℕ} {w w' : GameWorld} {s : Stmt} {r : game.Reply s}

section Step

/-- The only statement that cashes a bet out at a multiplier is the claim of `cashOut`. -/
lemma cashesOut_cases {j : ℕ} {o : Oracle} {old : Bet} {σ σ' : State}
    (h : exec P o i s σ = some (r, σ')) (hs : s.Issued)
    (hx : CashesOut j b m old (.answered i s r σ σ')) :
    j = i ∧ σ.bets.row b = some old ∧ old.status = .active ∧
      ∃ p, s = .claimWin b m p := by
  obtain ⟨wh, d, r', before, after, new, hentry, hm, hold, hne, hnew, hst⟩ := hx
  cases hentry
  rcases exec_betChange h b with hk | - | ⟨hold', hw, -⟩ | - | -
  · rw [hk, hold] at hnew
    exact absurd (Option.some.inj hnew ▸ hst) hne
  · obtain rfl := Option.some.inj (hold'.symm.trans hold)
    obtain ⟨p, hp⟩ := hs rfl
    cases hp <;> simp only [reduceCtorEq, Option.some.injEq] at hm
    subst hm
    obtain ⟨rfl, hactive⟩ : _ = b ∧ _ = BetStatus.active := by simpa [BetWhere.holds] using hw
    exact ⟨rfl, hold, hactive, _, rfl⟩

lemma busts_cases {o : Oracle} {σ σ' : State} (h : exec P o i s σ = some (r, σ')) (hs : s.Issued)
    (hx : Busts b (.answered i s r σ σ')) :
    ∃ old, σ.bets.row b = some old ∧ old.status = .active := by
  obtain ⟨old, new, hold, hne, hnew, hst⟩ := hx
  change σ.bets.row b = some old at hold
  change σ'.bets.row b = some new at hnew
  refine ⟨old, hold, ?_⟩
  rcases exec_betChange h b with hk | ⟨rfl, -, -⟩ | ⟨hold', hw, hrow⟩ | ⟨hold', hrow⟩ | hdel
  · rw [hk, hold] at hnew
    exact absurd (Option.some.inj hnew ▸ hst) hne
  · rw [σ.bets.row_next] at hold
    cases hold
  · obtain rfl := Option.some.inj (hold'.symm.trans hold)
    obtain rfl := Option.some.inj (hrow.symm.trans hnew)
    obtain ⟨p, hp⟩ := hs rfl
    cases hp <;> simp_all [BetWhere.holds]
  · obtain rfl := Option.some.inj (hold'.symm.trans hold)
    obtain rfl := Option.some.inj (hrow.symm.trans hnew)
    obtain ⟨p, hp⟩ := hs rfl
    cases hp <;> simp_all
  · rw [hdel] at hnew
    cases hnew

lemma not_cashesOut_of_busts {x : GameEntry} {old : Bet} (h : Busts b x) : ¬ CashesOut i b m old x := by
  rintro ⟨wh, d, r, before, after, new, rfl, -, -, -, hnew, hst⟩
  obtain ⟨old', new', -, -, hnew', hst'⟩ := h
  obtain rfl := Option.some.inj (hnew.symm.trans hnew')
  simp [hst] at hst'

lemma CrashGateInv.fresh (h : CrashGateInv w) {old : Bet} (hold : w.state.bets.row b = some old)
    (hactive : old.status = .active) :
    ∀ x ∈ w.log, ¬ (Busts b x ∨ ∃ i m old, CashesOut i b m old x) := by
  intro x hx hd
  have := (h.decided x hx b hd).2 old hold
  simp [hactive, BetStatus.stage] at this

lemma crashGate_step (hs : s.Issued) (hi : CrashGateInv w) (hp : (crashGate P).pre i s w)
    (ha : (crashGate P).Answers i s w r w') : CrashGateInv w' := by
  obtain ⟨o, σ', -, hexec, rfl⟩ := ha
  have hlater : Later w.state σ' := exec_later hexec hs
  refine ⟨⟨fun j b m old hx => ?_, hi.gated⟩, fun x hx b hd => ?_, fun b x hx y hy hbust j m old hcash => ?_⟩
  · obtain ⟨rfl, hold, hactive, p, rfl⟩ := cashesOut_cases hexec hs hx
    obtain ⟨d, hgate⟩ := hp b m p rfl
    obtain rfl := hgate.terms.2 old hold
    exact ⟨hactive, hgate.below, hgate.read⟩
  · rcases List.mem_cons.1 hx with rfl | hx
    · rcases hd with ⟨old, new, -, -, hnew, hst⟩ | ⟨j, m, old, wh, d, r', bf, af, new, hentry, -, -, -, hnew, hst⟩
      · exact State.over_of_row hnew (by rw [hst]; rfl)
      · cases hentry
        exact State.over_of_row hnew (by rw [hst]; rfl)
    · exact (hi.decided x hx b hd).later hlater
  · rcases List.mem_cons.1 hx with rfl | hx <;> rcases List.mem_cons.1 hy with rfl | hy
    · exact not_cashesOut_of_busts hbust hcash
    · obtain ⟨old', hold', hactive⟩ := busts_cases hexec hs hbust
      exact hi.fresh hold' hactive y hy (.inr ⟨_, _, _, hcash⟩)
    · obtain ⟨-, hold', hactive, -⟩ := cashesOut_cases hexec hs hcash
      exact hi.fresh hold' hactive x hx (.inl hbust)
    · exact hi.exclusive b x hx y hy hbust j m old hcash

lemma crashGate_move (hi : CrashGateInv w) (hm : (crashGate P).Moves w w') : CrashGateInv w' := by
  have hlater : Later w.state w'.state := moves_later hm
  have hbets : w'.state.bets = w.state.bets := (moves_tables hm).bets
  obtain ⟨x, hlog, hbefore, hafter, hcash⟩ : ∃ x, w'.log = x :: w.log ∧ x.before = w.state ∧
      x.after = w'.state ∧ ∀ i b m old, ¬ CashesOut i b m old x := by
    rcases hm with ⟨n, e, a, p, -, -, rfl⟩ | ⟨j, -, rfl⟩
    · exact ⟨_, rfl, rfl, rfl, by rintro i b m old ⟨_, _, _, _, _, _, h, -⟩; cases h⟩
    · exact ⟨_, rfl, rfl, rfl, by rintro i b m old ⟨_, _, _, _, _, _, h, -⟩; cases h⟩
  have hbust (b : ℕ) : ¬ Busts b x := by
    rintro ⟨old, new, hold, hne, hnew, hst⟩
    rw [hbefore] at hold
    rw [hafter, hbets, hold] at hnew
    exact hne (Option.some.inj hnew ▸ hst)
  refine ⟨?_, fun y hy b hd => ?_, fun b y hy z hz hb j m old hc => ?_⟩
  · rw [hlog]
    exact ⟨fun i b m old h => absurd h (hcash i b m old), hi.gated⟩
  · rw [hlog] at hy
    rcases List.mem_cons.1 hy with rfl | hy
    · rcases hd with hd | ⟨j, m, old, hd⟩
      · exact absurd hd (hbust b)
      · exact absurd hd (hcash j b m old)
    · exact (hi.decided y hy b hd).later hlater
  · rw [hlog] at hy hz
    rcases List.mem_cons.1 hy with rfl | hy
    · exact hbust b hb
    · rcases List.mem_cons.1 hz with rfl | hz
      · exact hcash j b m old hc
      · exact hi.exclusive b y hy z hz hb j m old hc

end Step

section Programs

lemma stable_true : (crashGate P).Stable i fun _ => True := Contract.stable_const True

lemma keeps_part {α : Type} {p : Program game α} {q : Part} (hp : p.Uses q.Issues)
    (hq : q ≠ .cashOut) : Keeps (crashGate P) i (fun _ => True) p := by
  refine keeps_of_uses hp stable_true fun s w hs _ _ => ⟨?_, fun _ _ _ _ => trivial⟩
  rintro b m p rfl
  cases hs.writes rfl
  exact absurd rfl hq

lemma keeps_plain {α : Type} {p : Program game α} (hp : p.Uses fun s : Stmt => s.plain) :
    Keeps (crashGate P) i (fun _ => True) p := by
  refine keeps_of_uses hp stable_true fun s w hs _ _ => ⟨?_, fun _ _ _ _ => trivial⟩
  rintro b m p rfl
  cases hs

lemma sat_claimWin (id : ℕ) (bet : Bet) (mult ccy : ℕ) (hgate : GatePassed i id mult bet.terms w) :
    Sat (crashGate P) i (fun _ _ => True) (BetsService.claimWin P id bet mult ccy) w := by
  refine sat_await_bind fun w₁ h₁ _ => ⟨fun b m p hs => ?_, fun r w₂ _ hi₂ => ?_⟩
  · obtain ⟨hid, hdata⟩ := Stmt.updateBets.inj hs
    obtain rfl : id = b := by simpa using hid
    obtain ⟨rfl, -⟩ : mult = m ∧ _ := by simpa using hdata
    exact ⟨bet.terms, (stable_gatePassed fun _ h => h).interferes h₁ hgate⟩
  · match r with
    | .error e => exact fun _ _ _ => trivial
    | .ok count =>
        dsimp only
        split
        · exact fun _ _ _ => trivial
        · exact keeps_part (payWin_uses _ _ _ _ _) (by decide) w₂ hi₂ trivial

lemma crashGate_parts : Parts P fun _ p => Keeps (crashGate P) i (fun _ => True) p where
  plain := keeps_plain
  placeBet a _ := keeps_part (placeBet_uses a) (by decide)
  cancelBet n u p := keeps_part (cancelBet_uses n u p) (by decide)
  cashOut n u p mm := keeps_cashOut (fun _ h => h) stable_true keeps_plain n u p mm
    fun id bet mult ccy w _ _ hgate => sat_claimWin id bet mult ccy hgate
  settleRound r := keeps_part (settleRound_uses r) (by decide)
  voidBet o b := keeps_part (voidBet_uses o b) (by decide)
  reconcileVoidingBets l := keeps_part (reconcileVoidingBets_uses l) (by decide)
  reconcilePendingPayouts l := keeps_part (reconcilePendingPayouts_uses l) (by decide)
  closeAndRefundRound r := keeps_part (closeAndRefundRound_uses r) (by decide)
  recoverReservingBets t := keeps_part (recoverReservingBets_uses t) (by decide)
  recoverStrandedActiveBets t := keeps_part (recoverStrandedActiveBets_uses t) (by decide)
  drainPending l := keeps_part (drainPending_uses _ l) (by decide)

lemma crashGate_sound : (crashGate P).Sound :=
  sound_of_parts rfl (fun _ => stable_true) (fun _ => crashGate_parts)
    (fun _ _ _ _ _ hs hi hp ha => crashGate_step hs hi hp ha) (fun _ _ => crashGate_move)
    (fun _ _ _ _ => trivial) (fun _ _ _ _ _ => trivial) fun _ _ _ _ _ _ _ _ => trivial

end Programs

theorem no_win_at_or_above_crash {σ : State} {c : GameConfig}
    (h : Rule.free.Reaches (system P) (Config.initial σ) c) :
    (∀ later x earlier, c.world.log = later ++ x :: earlier → Gated x earlier) ∧
      ∀ b, ∀ x ∈ c.world.log, ∀ y ∈ c.world.log, Busts b x →
        ∀ i m old, ¬ CashesOut i b m old y := by
  have hinitial : CrashGateInv ⟨σ, []⟩ := ⟨trivial, by simp, by simp⟩
  have hgood : c.Good (crashGate P) := (Config.good_initial hinitial).reaches crashGate_sound h
  exact ⟨fun _ _ _ hlog => hgood.inv.gated.split hlog, hgood.inv.exclusive⟩

section Witness

open Scenario

theorem no_win_at_or_above_crash_at_150 :
    ∃ c : GameConfig, (∃ x ∈ c.world.log, CashesOut 0 0 150 (Scenario.bet .active) x) ∧
      (∀ later x earlier, c.world.log = later ++ x :: earlier → Gated x earlier) ∧
      ∀ b, ∀ x ∈ c.world.log, ∀ y ∈ c.world.log, Busts b x →
        ∀ i m old, ¬ CashesOut i b m old y := by
  have hrun : (system (params false false)).run (Config.initial (staked .running .active))
      [.env (.call (.cashOut 0 1 .A (some 150))), act 0, act 0, act 0, act 0, act 0] = some _ := rfl
  refine ⟨_, ⟨_, List.mem_cons_self, _, _, _, _, _, _, rfl, rfl, rfl, by decide, rfl, rfl⟩,
    no_win_at_or_above_crash (Rule.reaches_of_run Rule.obeys_free hrun)⟩

end Witness

end VaultRun.Safety.CrashGate
