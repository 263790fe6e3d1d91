import VaultRun.Game.Debts
import VaultRun.Game.Postings
import VaultRun.Game.Scenario

/-!
A claimed win is paid in full, or is on its way, as long as no call is lost between the claim of a win
and its payment: nothing looks for a bet that is `cashed_out` and not paid.
-/

namespace VaultRun.Safety.ClaimedWins

open VaultRun.Concurrency VaultRun.Game Program

/-- The bet has been in `voiding`. -/
def Voided (b : ℕ) (log : List GameEntry) : Prop :=
  log.any fun x => statusIn x.after b = some .voiding

instance (b : ℕ) (log : List GameEntry) : Decidable (Voided b log) :=
  inferInstanceAs (Decidable (_ = true))

def wins (b : ℕ) (x : GameEntry) (_ : List GameEntry) : Bool :=
  statusIn x.before b = some .active && statusIn x.after b = some .cashedOut &&
    (x.after.bets.row b).any (0 < ·.payout)

def Paid (P : Params) (b : ℕ) (σ : State) : Bool :=
  (σ.bets.row b).any fun x => Applied P (.payout b) x.walletId x.payout σ

def claimsWin (b : ℕ) : Stmt → Bool
  | .updateBets wh d => wh.id = some b && wh.status = some [.active] && d.status = some .cashedOut
  | _ => false

def marksPending (b : ℕ) : Stmt → Bool
  | .updateBet id d => id = b && d.status = some .payoutPending
  | _ => false

/-- A call that has claimed a win of bet `b` does not die before it is paid, the claim is acknowledged,
and where the credit fails the write of `payout_pending` goes through. -/
@[reducible] def winRule (P : Params) (b : ℕ) : GameRule where
  act _ o s w :=
    (o = .unacked → claimsWin b s → statusIn w.state b ≠ some .active) ∧
      (o = .lost → marksPending b s → Paid P b w.state ∨ Voided b w.log)
  kill i w := processing (wins b) i w.log → Paid P b w.state ∨ Voided b w.log
  env _ _ _ := True

def Cleared (b : ℕ) (w : GameWorld) : Prop := Moved (.payout b) w.state ∨ Voided b w.log

structure WinInv (b : ℕ) (w : GameWorld) : Prop where
  outstanding : ∀ x, w.state.bets.row b = some x → x.status = .cashedOut → 0 < x.payout →
    Cleared b w ∨ ∃ i, processing (wins b) i w.log
  standing : Standing (.payout b) w.state ∨ Voided b w.log
  outbox : ∀ ref row, w.state.rollbacks.row ref = some row → row.transactionId = .payout b →
    Voided b w.log
  voiding : statusIn w.state b = some .voiding → Voided b w.log

structure WinPre (b i : ℕ) (s : Stmt) (w : GameWorld) : Prop where
  cleared : s.ofWallet = false → s ≠ .markPending b →
    processing (wins b) i w.log → Cleared b w
  undone : s.undone = some (.payout b) → Voided b w.log
  reconciled : ∀ tx, s = .markPaid b tx → Cleared b w

def claimedWins (P : Params) (b : ℕ) : Contract (system P) where
  rule := winRule P b
  inv := WinInv b
  stmts := Stmt.Issued
  pre i s w := WinPre b i s w
  ended i _ w := processing (wins b) i w.log → Cleared b w

variable {P : Params} {i b : ℕ} {w w' : GameWorld} {s : Stmt} {r : game.Reply s}
  {log : List GameEntry} {x : GameEntry}

lemma voided_cons : Voided b (x :: log) ↔ statusIn x.after b = some .voiding ∨ Voided b log := by
  simp [Voided]

lemma cleared_of_paid (h : Paid P b w.state ∨ Voided b w.log) : Cleared b w := by
  refine h.imp_left fun hp => ?_
  obtain ⟨x, -, hx⟩ := (Option.any_eq_true _ _).1 hp
  exact moved_of_applied hx

lemma Voided.cons (h : Voided b log) : Voided b (x :: log) := voided_cons.2 (.inr h)

lemma wins_iff : wins b x log = true ↔ statusIn x.before b = some .active ∧
    ∃ y, x.after.bets.row b = some y ∧ y.status = .cashedOut ∧ 0 < y.payout := by
  simp only [wins, statusIn, Bool.and_eq_true, decide_eq_true_eq, Option.any_eq_true,
    Option.map_eq_some_iff]
  constructor
  · rintro ⟨⟨hbefore, y, hy, hst⟩, z, hz, hpay⟩
    obtain rfl := Option.some.inj (hy.symm.trans hz)
    exact ⟨hbefore, y, hy, hst, hpay⟩
  · rintro ⟨hbefore, y, hy, hst, hpay⟩
    exact ⟨⟨hbefore, y, hy, hst⟩, y, hy, hpay⟩

section Step

variable {o : Oracle} {σ' : State} (hexec : exec P o i s w.state = some (r, σ'))
include hexec

lemma Cleared.answer (h : Cleared b w) (hs : s.undone = some (.payout b) → Voided b w.log) :
    Cleared b (w.answer i s r σ') := by
  rcases h with hp | hv
  · by_cases hu : s.undone = some (.payout b)
    · exact .inr (hs hu).cons
    · exact .inl (hp.exec hexec hu)
  · exact .inr hv.cons

/-- A bet comes to be `cashed_out` by the claim of `cashOut` or by the reconciler. -/
lemma cashedOut_cases (hs : s.Issued) {y : Bet} (hy : σ'.bets.row b = some y)
    (hst : y.status = .cashedOut) :
    (∃ z, w.state.bets.row b = some z ∧ z.status = .cashedOut ∧ z.payout = y.payout) ∨
      (statusIn w.state b = some .active ∧ ∃ m p, s = .claimWin b m p) ∨
        ∃ tx, s = .markPaid b tx := by
  rcases exec_betChange hexec b with hk | ⟨rfl, -, hrow⟩ | ⟨hold, hw, hrow⟩ | ⟨hold, hrow⟩ | hdel
  · exact .inl ⟨y, hk ▸ hy, hst, rfl⟩
  · obtain rfl := Option.some.inj (hrow.symm.trans hy)
    simp at hst
  · obtain rfl := Option.some.inj (hrow.symm.trans hy)
    obtain ⟨p, hp⟩ := hs rfl
    cases hp with
    | cashOut id m p =>
        obtain ⟨rfl, hactive⟩ : id = b ∧ _ = BetStatus.active := by simpa [BetWhere.holds] using hw
        exact .inr (.inl ⟨by simp [statusIn, hold, hactive], m, p, rfl⟩)
    | reconcile id tx =>
        obtain ⟨rfl, -⟩ : id = b ∧ _ = BetStatus.payoutPending := by simpa [BetWhere.holds] using hw
        exact .inr (.inr ⟨tx, rfl⟩)
    | _ => simp_all [BetWhere.holds]
  · obtain rfl := Option.some.inj (hrow.symm.trans hy)
    obtain ⟨p, hp⟩ := hs rfl
    cases hp with
    | paid id tx => exact .inl ⟨_, hold, hst, rfl⟩
    | _ => simp at hst
  · rw [hdel] at hy
    cases hy

lemma pending_lost (hs : s = .markPending b) {y z : Bet}
    (hz : w.state.bets.row b = some z) (hy : σ'.bets.row b = some y) (hst : y.status = .cashedOut) :
    o = .lost := by
  subst hs
  have hperform (r) (hp : perform P i (.markPending b) w.state = some (r, σ')) : False := by
    simp only [perform, hz, Option.isSome_some, if_true] at hp
    obtain ⟨-, rfl⟩ := Prod.mk.inj (Option.some.inj hp)
    simp only [updateBets_row, hz, Option.map_some, holds_id, if_true, Option.some.injEq] at hy
    rw [← hy] at hst
    simp at hst
  cases o with
  | lost => rfl
  | ok => exact (hperform _ hexec).elim
  | unacked =>
      obtain ⟨⟨r', σ₁⟩, hp, ha⟩ := Option.map_eq_some_iff.1 hexec
      obtain ⟨-, rfl⟩ := Prod.mk.inj ha
      exact (hperform _ hp).elim
  | _ => cases hexec

lemma processing_of_claim {y : Bet} {m : ℕ} {p : ℤ} (hs : s = .claimWin b m p)
    (hactive : statusIn w.state b = some .active) (hy : σ'.bets.row b = some y)
    (hst : y.status = .cashedOut) (hpay : 0 < y.payout) :
    processing (wins b) i (w.answer i s r σ').log := by
  subst hs
  rw [World.answer_log, processing_own rfl]
  exact wins_iff.2 ⟨hactive, y, hy, hst, hpay⟩

lemma not_processing_own (hs : s.Issued) (hclaim : ∀ m p, s ≠ .claimWin b m p)
    (hwal : s.ofWallet = false) : ¬ processing (wins b) i (w.answer i s r σ').log := by
  rw [World.answer_log, processing_own hwal, wins_iff]
  rintro ⟨hactive, y, hy, hst, -⟩
  obtain ⟨z, hz, hzst⟩ := Option.map_eq_some_iff.1 hactive
  change w.state.bets.row b = some z at hz
  rcases cashedOut_cases hexec hs hy hst with ⟨z', hz', hst', -⟩ | ⟨-, m, p, hc⟩ | ⟨tx, rfl⟩
  · obtain rfl := Option.some.inj (hz.symm.trans hz')
    rw [hzst] at hst'
    cases hst'
  · exact hclaim m p hc
  · rcases exec_betChange hexec b with hk | - | ⟨hold, hwh, -⟩ | - | -
    · rw [Entry.after, hk, hz, Option.some.injEq] at hy
      simp [← hy, hzst] at hst
    · rw [hold, Option.some.injEq] at hz
      simp [BetWhere.holds, hz, hzst] at hwh

lemma notOwing_answer (hs : s.Issued) (hclaim : ∀ m p, s ≠ .claimWin b m p)
    (hp : s.undone = some (.payout b) → Voided b w.log)
    (hw : processing (wins b) i w.log → Cleared b w) :
    processing (wins b) i (w.answer i s r σ').log → Cleared b (w.answer i s r σ') := by
  intro hproc
  cases hwal : s.ofWallet with
  | true =>
      rw [World.answer_log, processing_wallet hwal] at hproc
      exact (hw hproc).answer hexec hp
  | false => exact absurd hproc (not_processing_own hexec hs hclaim hwal)

end Step

lemma claimedWins_step (hs : s.Issued) (hi : WinInv b w) (hp : WinPre b i s w)
    (ha : (claimedWins P b).Answers i s w r w') : WinInv b w' := by
  obtain ⟨o, σ', ⟨-, hlost⟩, hexec, rfl⟩ := ha
  have hclear (h : Cleared b w) : Cleared b (w.answer i s r σ') := h.answer hexec hp.undone
  refine ⟨fun y hy hst hpay => ?_, ?_, fun ref row hrow htx => ?_, fun hst => ?_⟩
  · rcases cashedOut_cases hexec hs hy hst with ⟨z, hz, hzst, hzpay⟩ | ⟨hactive, m, p, hc⟩ | ⟨tx, hc⟩
    · rcases hi.outstanding z hz hzst (hzpay ▸ hpay) with hc | ⟨j, hj⟩
      · exact .inl (hclear hc)
      by_cases hij : i = j
      · subst hij
        cases hwal : s.ofWallet with
        | true => exact .inr ⟨i, by rwa [World.answer_log, processing_wallet hwal]⟩
        | false =>
            by_cases hpend : s = .markPending b
            · have hpaid := hlost (pending_lost hexec hpend hz hy hst) (by simp [hpend, marksPending])
              exact .inl (hclear (cleared_of_paid hpaid))
            · exact .inl (hclear (hp.cleared hwal hpend hj))
      · exact .inr ⟨j, by rwa [World.answer_log, processing_other hij]⟩
    · exact .inr ⟨i, processing_of_claim hexec hc hactive hy hst hpay⟩
    · exact .inl (hclear (hp.reconciled tx hc))
  · rcases hi.standing with hst | hv
    · by_cases hu : s.undone = some (.payout b)
      · exact .inr (hp.undone hu).cons
      · exact .inl (hst.exec hexec hu)
    · exact .inr hv.cons
  · rcases exec_rollback_row hexec hrow with ⟨old, hold, heq⟩ | rfl
    · exact (hi.outbox ref old hold (heq.trans htx)).cons
    · exact (hp.undone (by simp [htx])).cons
  · exact voided_cons.2 (.inl hst)

lemma claimedWins_move (hi : WinInv b w) (hm : (claimedWins P b).Moves w w') : WinInv b w' := by
  have htables := moves_tables hm
  have hproc (i : ℕ) := moves_processing (wins b) i hm
  have hvoided (hv : Voided b w.log) : Voided b w'.log := by
    rcases hm with ⟨n, e, a, p, -, -, rfl⟩ | ⟨j, -, rfl⟩
    · exact hv.cons
    · exact hv.cons
  refine ⟨fun y hy hst hpay => ?_, ?_, fun ref row hrow htx => ?_, fun hst => ?_⟩
  · rw [htables.bets] at hy
    rcases hi.outstanding y hy hst hpay with (hp | hv) | ⟨i, h⟩
    · exact .inl (.inl (hp.same htables))
    · exact .inl (.inr (hvoided hv))
    · exact .inr ⟨i, by rwa [hproc]⟩
  · exact hi.standing.imp (·.same htables) hvoided
  · rw [htables.rollbacks] at hrow
    exact hvoided (hi.outbox ref row hrow htx)
  · rw [statusIn, htables.bets] at hst
    exact hvoided (hi.voiding hst)

lemma Cleared.disturbs (hc : Cleared b w) (h : (claimedWins P b).Disturbs i w w') : Cleared b w' := by
  obtain ⟨-, -, hm | ⟨j, s, r, -, -, hp, o, σ', -, hexec, rfl⟩⟩ := h
  · rcases hc with hc | hv
    · exact .inl (hc.same (moves_tables hm))
    · rcases hm with ⟨n, e, a, p, -, -, rfl⟩ | ⟨j, -, rfl⟩
      · exact .inr hv.cons
      · exact .inr hv.cons
  · exact hc.answer hexec hp.undone

abbrev PaidUp (b i : ℕ) : GameWorld → Prop := NotOwing (wins b) (Cleared b) i

lemma stable_cleared : (claimedWins P b).Stable i (Cleared b) := fun _ _ h hc => hc.disturbs h

lemma stable_paidUp : (claimedWins P b).Stable i (PaidUp b i) := stable_notOwing stable_cleared

section Programs

inductive Wins (b : ℕ) : Stmt → Prop
  | claim (m : ℕ) (p : ℤ) : Wins b (.claimWin b m p)
  | paid (tx : Key) : Wins b (.markPaid b tx)

lemma Wins.writesBets (s : Stmt) (h : Wins b s) : s.writesBets := by cases h <;> rfl

lemma keeps_harmless {α : Type} {p : Program game α} {q : Prop}
    (hp : p.Uses (Harmless (Wins b) (.payout b) q)) :
    Keeps (claimedWins P b) i (fun w => PaidUp b i w ∧ (q → Voided b w.log)) p := by
  have hJ : (claimedWins P b).Stable i fun w => q → Voided b w.log :=
    Contract.stable_log (q → Voided b ·) fun _ _ h hq => (h hq).cons
  refine keeps_of_uses hp (stable_paidUp.and hJ) fun s w hs _ hw => ?_
  have hundone (hu : s.undone = some (.payout b)) : Voided b w.log := hw.2 (hs.undone hu)
  refine ⟨⟨fun _ _ => hw.1, hundone, fun tx h => absurd (h ▸ .paid tx) hs.claim⟩, ?_⟩
  rintro r w' ⟨o, σ', -, hexec, rfl⟩ _
  refine ⟨notOwing_answer hexec hs.issued (fun m p h => ?_) hundone hw.1, fun hq => (hw.2 hq).cons⟩
  exact hs.claim (h ▸ .claim m p)

lemma keeps_notOwing {α : Type} {p : Program game α} (hp : p.Uses (Harmless (Wins b) (.payout b) False)) :
    Keeps (claimedWins P b) i (PaidUp b i) p :=
  fun w hi hw => (keeps_harmless hp w hi ⟨hw, False.elim⟩).mono fun _ _ _ h => h.1

lemma keeps_part {α : Type} {p : Program game α} {q : Part} (hp : p.Uses q.Issues)
    (hq : q ∉ [Part.cashOut, .reconcilePayouts, .voidBet, .drain]) :
    Keeps (claimedWins P b) i (PaidUp b i) p := by
  refine keeps_notOwing (hp.mono fun s hs => ⟨hs.issued, fun hc => ?_, fun hu => ?_⟩)
  · cases hc <;> cases hs.writes rfl <;> simp at hq
  · have := hs.undoes hu
    cases q <;> simp_all [Part.undoes]

lemma keeps_plain {α : Type} {p : Program game α} (hp : p.Uses fun s : Stmt => s.plain) :
    Keeps (claimedWins P b) i (PaidUp b i) p :=
  keeps_part (q := .settleRound) (hp.mono fun _ hs => .inl hs) (by decide)

lemma credit_rules (q : Prop) :
    CreditRules (claimedWins P b) i (.payout b) (fun w => q → PaidUp b i w) (Cleared b) where
  stable := fun w w' h hw hq => stable_paidUp w w' h (hw hq)
  stable_paid := stable_cleared
  step s w hs hk hu hi hw := by
    refine ⟨⟨fun hwal => ?_, fun hu' => ?_, fun tx htx => ?_⟩, ?_⟩
    · rw [hs] at hwal
      cases hwal
    · rw [hu] at hu'
      cases hu'
    · subst htx
      cases hs
    · rintro r w' ⟨o, σ', -, hexec, rfl⟩ _
      have hanswer (hc : Cleared b w) : Cleared b (w.answer i s r σ') :=
        hc.answer hexec (by simp [hu])
      refine ⟨fun hq hproc => ?_, hanswer⟩
      rw [World.answer_log, processing_wallet hs] at hproc
      exact hanswer (hw hq hproc)
  paid _ _ h := .inl h
  standing w hi := hi.standing.symm.imp_left .inr

lemma sat_payWin (id : ℕ) (bet : Bet) (mult : ℕ) (payout : ℤ) (ccy : ℕ)
    (hi : WinInv b w) (hw : id ≠ b → PaidUp b i w) :
    Sat (claimedWins P b) i (fun _ => PaidUp b i) (BetsService.payWin P id bet mult payout ccy) w := by
  by_cases hid : id = b
  · subst hid
    refine sat_bind (sat_attempt ((sat_credit (credit_rules False) _ _ _ _ (by simp)).mono ?_))
    rintro (e | credit) w₁ hi₁ ⟨-, hpaid⟩
    · refine sat_await_bind fun w₂ _ _ => ⟨⟨fun _ h => absurd rfl h, by simp, by simp⟩, ?_⟩
      rintro r w₃ ⟨o, σ', -, hexec, rfl⟩ _
      have hnot : PaidUp id i (w₂.answer i (.markPending id) r σ') := fun hproc =>
        absurd hproc (not_processing_own hexec (fun _ => ⟨_, .pending id⟩) (by simp) rfl)
      cases r with
      | error e => exact fun w₄ h₄ _ => stable_paidUp.interferes h₄ hnot
      | ok u => exact fun w₄ h₄ _ => stable_paidUp.interferes h₄ hnot
    · refine keeps_part (q := .payWin) ?_ (by decide) w₁ hi₁ fun _ => hpaid ⟨credit, rfl⟩
      exact uses_compositional.bind (await_uses (.inr (.inr (.paid id credit.id)))) fun _ =>
        uses_compositional.bind (plain_await rfl) fun _ => trivial
  · exact keeps_part (payWin_uses _ _ _ _ _) (by decide) w hi (hw hid)

lemma notOwing_of_claim {id m : ℕ} {p : ℤ} {r : Except Err ℕ}
    (ha : (claimedWins P b).Answers i (.claimWin id m p) w r w') (hw : PaidUp b i w)
    (hr : ∀ n, r = .ok n → n = 0 ∨ id ≠ b) : PaidUp b i w' := by
  obtain ⟨o, σ', ⟨hack, -⟩, hexec, rfl⟩ := ha
  intro hproc
  have hissued : Stmt.Issued (.claimWin id m p) := fun _ => ⟨_, .cashOut id m p⟩
  by_cases hid : id = b
  · subst hid
    rw [World.answer_log, processing_own rfl, wins_iff] at hproc
    obtain ⟨hactive, y, hy, hst, -⟩ := hproc
    obtain ⟨z, hz, hzst⟩ := Option.map_eq_some_iff.1 hactive
    change w.state.bets.row id = some z at hz
    change σ'.bets.row id = some y at hy
    have hne : σ'.bets.row id ≠ w.state.bets.row id := by
      rw [hz, hy]
      intro h
      rw [Option.some.inj h, hzst] at hst
      cases hst
    rcases exec_swap_ne hexec hne with rfl | ⟨n, hn, hn0⟩
    · exact absurd hactive (hack rfl (by simp [claimsWin]))
    · exact absurd rfl ((hr n hn).resolve_left hn0)
  · exact (not_processing_own hexec hissued
      (fun m' p' h => hid (by simpa using (Stmt.updateBets.inj h).1)) rfl hproc).elim

lemma sat_claimWin (id : ℕ) (bet : Bet) (mult ccy : ℕ) (hw : PaidUp b i w) :
    Sat (claimedWins P b) i (fun _ => PaidUp b i) (BetsService.claimWin P id bet mult ccy) w := by
  refine sat_await_bind fun w₁ h₁ hi₁ => ?_
  have hw₁ := stable_paidUp.interferes h₁ hw
  refine ⟨⟨fun _ _ => hw₁, by simp, by simp⟩, fun r w₂ ha hi₂ => ?_⟩
  match r with
  | .error e =>
      exact fun w₃ h₃ _ => stable_paidUp.interferes h₃ (notOwing_of_claim ha hw₁ (by simp))
  | .ok count =>
      dsimp only
      split
      · exact keeps_ret stable_paidUp _ w₂ hi₂
          (notOwing_of_claim ha hw₁ fun n hn => .inl (by simp_all))
      · exact sat_payWin id bet mult _ ccy hi₂ fun hid =>
          notOwing_of_claim ha hw₁ fun _ _ => .inr hid

lemma keeps_reconcileOne (n : ℕ) (x : ℕ × Bet) :
    Keeps (claimedWins P b) i (PaidUp b i) (BetsService.reconcileOne P n x) := by
  refine keeps_bind (keeps_attempt ?_) fun done => keeps_ret stable_paidUp _
  intro w hi hw
  by_cases hid : x.1 = b
  · have hcredit := sat_credit (w := w) (credit_rules (P := P) (i := i) (b := b) True) x.2.walletId
      x.2.payout .payoutCredit x.1 fun _ => hw
    rw [hid] at hcredit ⊢
    refine sat_bind (hcredit.mono ?_)
    rintro (e | credit) w₁ hi₁ ⟨hw₁, hpaid⟩
    · exact hw₁ trivial
    refine sat_await_bind fun w₂ h₂ hi₂ => ?_
    have hw₂ := stable_paidUp.interferes h₂ (hw₁ trivial)
    have hc₂ := stable_cleared.interferes h₂ (hpaid ⟨credit, rfl⟩)
    refine ⟨⟨fun _ _ => hw₂, by simp, fun _ _ => hc₂⟩, ?_⟩
    rintro r w₃ ⟨o, σ', -, hexec, rfl⟩ hi₃
    have hw₃ : PaidUp b i _ :=
      notOwing_answer hexec (fun _ => ⟨_, .reconcile b credit.id⟩) (by simp) (by simp) hw₂
    match r with
    | .error e => exact fun w₄ h₄ _ => stable_paidUp.interferes h₄ hw₃
    | .ok count =>
        refine keeps_plain ?_ _ hi₃ hw₃
        simp [Program.await]
  · have hcredit := (credit_uses (P := P) x.2.walletId x.2.payout .payoutCredit (.payout x.1) x.1).mono
      fun s hs => harmless_wallet (k := .payout b) (q := False) (Wins.writesBets (b := b)) hs.1
        (by simp [hs.2.2])
    have hflip (tx : Key) : Harmless (Wins b) (.payout b) False (.markPaid x.1 tx) := by
      refine ⟨fun _ => ⟨_, .reconcile x.1 tx⟩, fun hc => ?_, by simp⟩
      cases hc
      exact hid rfl
    refine keeps_notOwing (uses_compositional.bind hcredit fun credit =>
      uses_compositional.bind (await_uses (hflip credit.id)) fun count => ?_) w hi hw
    split
    · trivial
    · exact uses_compositional.bind (await_uses (harmless_plain Wins.writesBets rfl)) fun _ => trivial

lemma performVoidReversals_harmless (id : ℕ) (bet : Bet) :
    (BetsService.performVoidReversals P id bet).Uses (Harmless (Wins b) (.payout b) (id = b)) := by
  have hreclaim : (P.wallet.reverse bet.walletId ⟨.payout id, .voidReclaim id, bet.payout, .credit,
      .payoutCredit, id, none⟩).Uses (Harmless (Wins b) (.payout b) (id = b)) :=
    wallet_reverse_uses (m := fun _ => True) (u := (· = .payout id))
      (fun s hs _ hu => harmless_wallet Wins.writesBets hs fun h => (Key.payout.inj (hu _ h)).symm) _ trivial rfl
  have hrefund : (P.wallet.reverse bet.walletId ⟨.debit bet.slot, .voidRefund id, bet.amount, .debit,
      .refund, id, none⟩).Uses (Harmless (Wins b) (.payout b) (id = b)) :=
    wallet_reverse_uses (m := fun _ => True) (u := (· = .debit bet.slot))
      (fun s hs _ hu => harmless_wallet Wins.writesBets hs fun h => by cases hu _ h) _ trivial rfl
  unfold BetsService.performVoidReversals
  split
  · exact uses_compositional.bind hreclaim fun _ => hrefund
  · exact hrefund

lemma harmless_finishVoid (id : ℕ) (q : Prop) :
    Harmless (Wins b) (.payout b) q (.updateBets { id := some id, status := some [.voiding] }
      { status := some .voided }) :=
  ⟨fun _ => ⟨_, .finishVoid id⟩, (fun hc => by cases hc), by simp⟩

lemma sat_claimVoid (id : ℕ) (st : BetStatus) (hi : WinInv b w) (hw : PaidUp b i w)
    (hvoiding : st = .voiding → id = b → Voided b w.log)
    (hst : st = .voiding ∨ st = .busted ∨ st = .cashedOut) :
    Sat (claimedWins P b) i
      (fun r w => PaidUp b i w ∧ ∀ n, r = .ok n → n ≠ 0 → id = b → Voided b w.log)
      (BetsService.claimVoid id st) w := by
  have hvoided : (claimedWins P b).Stable i fun w => id = b → Voided b w.log :=
    Contract.stable_log (id = b → Voided b ·) fun _ _ h hid => (h hid).cons
  by_cases hv : st = .voiding
  · rw [BetsService.claimVoid, if_pos hv]
    exact fun w₁ h₁ _ => ⟨stable_paidUp.interferes h₁ hw,
      fun _ _ _ => hvoided.interferes h₁ (hvoiding hv)⟩
  rw [BetsService.claimVoid, if_neg hv]
  refine sat_await fun w₁ h₁ _ => ?_
  have hw₁ := stable_paidUp.interferes h₁ hw
  refine ⟨⟨fun _ _ => hw₁, by simp, by simp⟩, ?_⟩
  rintro r w₂ ⟨o, σ', -, hexec, rfl⟩ _ w₃ h₃ _
  have hissued : Stmt.Issued (.updateBets { id := some id, status := some [st] }
      { status := some .voiding }) := fun _ => ⟨_, .claimVoid id st (hst.resolve_left hv)⟩
  refine ⟨stable_paidUp.interferes h₃ (notOwing_answer hexec hissued (by simp) (by simp) hw₁), ?_⟩
  rintro n rfl hn
  refine hvoided.interferes h₃ fun hid => ?_
  subst hid
  obtain ⟨x, -, -, hrow⟩ := exec_swap hexec hn
  refine voided_cons.2 (.inl ?_)
  simp [statusIn, Entry.after, hrow]

lemma keeps_voidBet (op id : ℕ) :
    Keeps (claimedWins P b) i (PaidUp b i) (BetsService.voidBet P op id) := by
  intro w hi hw
  refine sat_plain_bind keeps_plain rfl hi hw fun w₁ found w₂ h₁ hi₂ hw₂ hfound => ?_
  match found, hfound with
  | none, _ => exact keeps_raise stable_paidUp _ w₂ hi₂ hw₂
  | some bet, hfound =>
      have hvoiding (hst : bet.status = .voiding) (hid : id = b) : Voided b w₂.log := by
        subst hid
        obtain ⟨o, σ', -, hexec, rfl⟩ := hfound
        obtain ⟨hrow, rfl⟩ : w₁.state.bets.row id = some bet ∧ w₁.state = σ' := by
          simpa [perform] using perform_of_ok hexec rfl
        exact hi₂.voiding (by simp [statusIn, hrow, hst])
      have hreversals (p : VoidResult) : (do
          BetsService.performVoidReversals P id bet
          let _ ← await (.updateBets { id := some id, status := some [.voiding] }
            { status := some .voided })
          pure p : Program game VoidResult).Uses (Harmless (Wins b) (.payout b) (id = b)) :=
        uses_compositional.bind (performVoidReversals_harmless id bet) fun _ =>
          uses_compositional.bind (await_uses (harmless_finishVoid id _)) fun _ => trivial
      dsimp only
      split
      · exact keeps_raise stable_paidUp _ w₂ hi₂ hw₂
      split
      · exact keeps_ret stable_paidUp _ w₂ hi₂ hw₂
      split
      · exact keeps_ret stable_paidUp _ w₂ hi₂ hw₂
      split
      · exact keeps_raise stable_paidUp _ w₂ hi₂ hw₂
      split
      · exact keeps_raise stable_paidUp _ w₂ hi₂ hw₂
      have hst : bet.status = .voiding ∨ bet.status = .busted ∨ bet.status = .cashedOut := by
        cases hb : bet.status <;> simp_all
      refine sat_bind ((sat_claimVoid id bet.status hi₂ hw₂ hvoiding hst).mono ?_)
      rintro (e | count) w₃ hi₃ ⟨hw₃, hclaimed⟩
      · exact hw₃
      · dsimp only
        split
        · exact keeps_raise stable_paidUp _ w₃ hi₃ hw₃
        · exact (keeps_harmless (hreversals _) w₃ hi₃ ⟨hw₃, hclaimed count rfl ‹_›⟩).mono
            fun _ _ _ h => h.1

lemma keeps_reconcileVoidingBets (l : ℕ) :
    Keeps (claimedWins P b) i (PaidUp b i) (BetsService.reconcileVoidingBets P l) := by
  intro w hi hw
  refine sat_plain_bind keeps_plain rfl hi hw fun w₁ stuck w₂ _ hi₂ hw₂ hfind => ?_
  have hT : b ∈ stuck.map Prod.fst → Voided b w₂.log := by
    intro hb
    obtain ⟨⟨id, bet⟩, hmem, rfl⟩ := List.mem_map.1 hb
    obtain ⟨hsame, hrows⟩ := answers_findBets hfind
    obtain ⟨hrow, hwh⟩ := hrows id bet hmem
    have hst : bet.status = .voiding := by simpa [BetWhere.holds] using hwh
    exact hi₂.voiding (by simp [statusIn, hsame, hrow, hst])
  have hone (n : ℕ) (x : ℕ × Bet) (hx : x ∈ stuck) :
      (BetsService.reconcileVoidOne P n x).Uses (Harmless (Wins b) (.payout b) (b ∈ stuck.map Prod.fst)) := by
    refine uses_compositional.bind (uses_compositional.attempt (uses_compositional.bind ?_ fun _ =>
      await_uses (harmless_finishVoid x.1 _))) fun _ => trivial
    refine (performVoidReversals_harmless x.1 x.2).mono fun s hs => ⟨hs.issued, hs.claim, ?_⟩
    exact fun hu => hs.undone hu ▸ List.mem_map_of_mem hx
  exact (keeps_harmless (uses_loop _ fun n x hx => hone n x hx) w₂ hi₂ ⟨hw₂, hT⟩).mono fun _ _ _ h => h.1

lemma keeps_reconcilePendingPayouts (l : ℕ) :
    Keeps (claimedWins P b) i (PaidUp b i) (BetsService.reconcilePendingPayouts P l) :=
  keeps_bind (keeps_plain (await_plain rfl)) fun _ =>
    keeps_loop stable_paidUp _ fun x _ n => keeps_reconcileOne n x

lemma keeps_drainPending (mode : Bool) (l : ℕ) :
    Keeps (claimedWins P b) i (PaidUp b i) (WalletRollbackService.drainPending mode l) := by
  refine Game.keeps_drainPending stable_paidUp keeps_plain
    (T := fun rows w => (∃ x ∈ rows, x.2.transactionId = .payout b) → Voided b w.log)
    (fun rows => Contract.stable_log (_ → Voided b ·) fun _ _ h hx => (h hx).cons) ?_ ?_ mode l
  · rintro rows w hi hrows ⟨⟨ref, row⟩, hmem, htx⟩
    exact hi.outbox ref row (hrows ref row hmem) htx
  · intro rows n x hx
    refine keeps_harmless (drainOne_wallet_uses (m := fun _ => True) (u := (· = x.2.transactionId))
      (fun s hs _ hu => harmless_wallet Wins.writesBets hs fun h => ?_) n x rfl)
    exact ⟨x, hx, (hu _ h).symm⟩

lemma claimedWins_parts : Parts P fun _ p => Keeps (claimedWins P b) i (PaidUp b i) p where
  plain := keeps_plain
  placeBet a _ := keeps_part (placeBet_uses a) (by decide)
  cancelBet n u p := keeps_part (cancelBet_uses n u p) (by decide)
  cashOut n u p mm := keeps_cashOut (fun _ h => h) stable_paidUp keeps_plain n u p mm
    fun id bet mult ccy w _ hw _ => sat_claimWin id bet mult ccy hw
  settleRound r := keeps_part (settleRound_uses r) (by decide)
  voidBet := keeps_voidBet
  reconcileVoidingBets := keeps_reconcileVoidingBets
  reconcilePendingPayouts := keeps_reconcilePendingPayouts
  closeAndRefundRound r := keeps_part (closeAndRefundRound_uses r) (by decide)
  recoverReservingBets t := keeps_part (recoverReservingBets_uses t) (by decide)
  recoverStrandedActiveBets t := keeps_part (recoverStrandedActiveBets_uses t) (by decide)
  drainPending := keeps_drainPending _

end Programs

lemma Cleared.kill (h : Cleared b w) : Cleared b (w.kill i (w.state.abort i)) :=
  h.imp (fun hp => hp.same ⟨rfl, rfl, rfl, rfl, rfl, rfl⟩) Voided.cons

lemma claimedWins_sound : (claimedWins P b).Sound :=
  sound_of_parts rfl (fun _ => stable_paidUp) (fun _ => claimedWins_parts)
    (fun _ _ _ _ _ hs hi hp ha => claimedWins_step hs hi hp ha) (fun _ _ => claimedWins_move)
    (fun _ _ _ hlog => notOwing_of_lastBy hlog) (fun _ _ _ _ hw => hw)
    fun _ _ _ hrule _ _ h _ => stable_paidUp.interferes h
      (NotOwing.kill (fun hproc => cleared_of_paid (hrule hproc)) Cleared.kill)

/-- Every win of bet `b` is paid, nothing else is booked under its key, and nothing undoes it. -/
structure Fresh (P : Params) (b : ℕ) (σ : State) : Prop where
  paid : ∀ x, σ.bets.row b = some x → x.status = .cashedOut → 0 < x.payout →
    Applied P (.payout b) x.walletId x.payout σ
  booked : Booked P (.payout b) (WinDue b · · ⟨σ, []⟩) σ
  standing : Standing (.payout b) σ
  outbox : ∀ ref row, σ.rollbacks.row ref = some row → row.transactionId ≠ .payout b
  voiding : statusIn σ b ≠ some .voiding

/-- A cashed-out bet that was never voided has its payout booked for its wallet, or a live call that
claimed it is still paying it, or a recovery pass still selects it. -/
def Honoured (P : Params) (b : ℕ) (c : GameConfig) : Prop :=
  ∀ x, c.world.state.bets.row b = some x → x.status = .cashedOut → 0 < x.payout →
    ¬ Voided b c.world.log →
      Applied P (.payout b) x.walletId x.payout c.world.state ∨
      (∃ i s k, c.threads[i]? = some (.live (.call s k)) ∧ processing (wins b) i c.world.log) ∨
      Recoverable b c.world.state

lemma winInv_initial {σ : State} (h : Fresh P b σ) : WinInv b ⟨σ, []⟩ where
  outstanding x hx hst hpay := .inl (.inl (moved_of_applied (h.paid x hx hst hpay)))
  standing := .inl h.standing
  outbox ref row hrow htx := absurd htx (h.outbox ref row hrow)
  voiding hst := absurd hst h.voiding

theorem claimed_win_not_lost {σ : State} {c : GameConfig} (hσ : Fresh P b σ)
    (h : (winRule P b).Reaches (system P) (Config.initial σ) c) : Honoured P b c := by
  have hgood : c.Good (claimedWins P b) :=
    (Config.good_initial (winInv_initial hσ)).reaches claimedWins_sound h
  intro x hx hst hpay hvoid
  have hcleared (hc : Cleared b c.world) : Applied P (.payout b) x.walletId x.payout c.world.state := by
    obtain ⟨wl, amt, hdue, happ⟩ := (hc.resolve_right hvoid).applied (win_booked hσ.booked h.free)
    obtain ⟨rfl, rfl⟩ := hdue.2 x hx
    exact happ
  rcases hgood.inv.outstanding x hx hst hpay with hc | ⟨i, hi⟩
  · exact .inl (hcleared hc)
  · rcases live_or_ended_of_processing hgood hi with ⟨s, k, ht⟩ | ⟨r, hended⟩
    · exact .inr (.inl ⟨i, s, k, ht, hi⟩)
    · exact .inl (hcleared (hended hi))

section Runs

open Scenario

lemma fresh_staked : Fresh P 0 (staked .running .active) where
  paid x hx hst := by
    obtain rfl := Option.some.inj hx
    cases hst
  booked := ⟨(fun _ h => by cases h), fun _ _ h => by cases h⟩
  standing _ _ h := by cases h
  outbox _ _ h := by cases h
  voiding := by decide

/-- The credit fails, the bet waits for its payout, and the reconciler pays it. -/
theorem claimed_win_paid_by_reconciler :
    ∃ c : GameConfig, statusIn c.world.state 0 = some .cashedOut ∧ Honoured (params false false) 0 c := by
  have hrun : (system (params false false)).run (Config.initial (staked .running .active))
      [.env (.call (.cashOut 0 1 .A none)), act 0, act 0, act 0, act 0, act 0, act 0, .act 0 .lost,
        act 0, .env (.call (.reconcilePendingPayouts 10)), act 1, act 1, act 1] = some _ := rfl
  exact ⟨_, by decide, claimed_win_not_lost fresh_staked (Rule.reaches_of_run (by decide) hrun)⟩

/-- The process dies right after the claim. -/
theorem claimed_win_lost :
    ∃ c : GameConfig, Fresh (params false false) 0 (staked .running .active) ∧
      Rule.free.Reaches (system (params false false)) (Config.initial (staked .running .active)) c ∧
        ¬ Honoured (params false false) 0 c := by
  have hrun : (system (params false false)).run (Config.initial (staked .running .active))
      [.env (.call (.cashOut 0 1 .A none)), act 0, act 0, act 0, act 0, act 0, act 0, .kill 0] =
        some _ := rfl
  refine ⟨_, fresh_staked, Rule.reaches_of_run Rule.obeys_free hrun, fun h => ?_⟩
  rcases h _ rfl rfl (by decide) (by decide) with happ | ⟨i, s, k, hi, -⟩ | hr
  · cases happ
  · cases i <;> cases hi
  · exact not_recoverable rfl (by decide) hr

end Runs

end VaultRun.Safety.ClaimedWins
