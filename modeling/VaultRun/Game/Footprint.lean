import VaultRun.Game.Frame

/-!
The statements each part of the service can issue, and how the calls are put together from the parts.
-/

namespace VaultRun.Game

open VaultRun.Concurrency Program WalletRollbackService SeamlessOperatorWallet BetsService
  GameEngineService

namespace Stmt

@[reducible] def plain (s : Stmt) : Bool :=
  !(s.writesBets || s.writesLedger || s.callsOperator || s.writesRollbacks || s.readsRollback)

@[reducible] def ofWallet : Stmt → Bool
  | dateNow | isDemoWallet _ | resolveSession _ | findRollback _ => true
  | s => s.writesLedger || s.callsOperator || s.writesRollbacks

@[reducible] def key : Stmt → Option Key
  | recordLedger _ _ _ k _ => some k
  | operatorBet req | operatorWin req => some req.transactionId
  | _ => none

/-- The key whose money the statement takes back, or notes down to be taken back. -/
@[reducible] def undone : Stmt → Option Key
  | operatorRollback _ k _ => some k
  | createRollback _ row => some row.transactionId
  | _ => none

end Stmt

lemma except_forall {ε α : Type} {p : Except ε α → Prop} :
    (∀ r, p r) ↔ (∀ e, p (.error e)) ∧ ∀ a, p (.ok a) :=
  ⟨fun h => ⟨fun e => h _, fun a => h _⟩, fun h r => by cases r <;> simp [h]⟩

lemma await_uses {φ : Stmt → Prop} {s : Stmt} (h : φ s) : (await s).Uses φ :=
  uses_call.2 ⟨h, fun r => uses_ofReply r⟩

attribute [local simp] Program.await Option.forall except_forall

section Wallet

variable {P : Params} {φ : Stmt → Prop} {m u : Key → Prop}
  (hw : ∀ s : Stmt, s.ofWallet → (∀ k ∈ s.key, m k) → (∀ k ∈ s.undone, u k) → φ s)
include hw

lemma acquireLease_uses (ref : RollbackRef) (row : WalletRollback) :
    (acquireLease ref row).Uses φ := by
  simp [acquireLease, hw]

variable {k : Key}

lemma claim_uses (hu : u k) (ref : RollbackRef) (a : Option ℤ) : (claim ref k a).Uses φ := by
  simp [claim, bumpAttempts, acquireLease_uses hw, hw, hu]

lemma rollbackOnce_uses (hu : u k) (s : OperatorSession) (b : ℕ) (reason : Intent)
    (propagate : Bool) (a : Option ℤ) : (rollbackOnce s k b reason propagate a).Uses φ := by
  simp [rollbackOnce, claim_uses hw hu, confirm, recordEmitFailure, hw, hu]

lemma drainOne_wallet_uses (n : ℕ) (x : RollbackRef × WalletRollback) (hu : u x.2.transactionId) :
    (drainOne n x).Uses φ := by
  simp [drainOne, acquireLease_uses hw, confirm, hw, hu]

lemma moveBet_uses (hk : m k) (hu : u k) (s : OperatorSession) (req : OperatorRequest) (n : ℕ)
    (hreq : req.transactionId = k) : (moveBet s req n).Uses φ := by
  subst hreq
  induction n with
  | zero => trivial
  | succ n ih => simp [moveBet, safeRollback, rollbackOnce_uses hw, ih, hw, hk, hu]

lemma moveWin_uses (hk : m k) (req : OperatorRequest) (n : ℕ) (hreq : req.transactionId = k) :
    (moveWin req n).Uses φ := by
  subst hreq
  induction n with
  | zero => trivial
  | succ n ih => simp [moveWin, ih, hw, hk]

lemma ledger_debit_uses (hk : m k) (w : ℕ) (a : ℤ) (t : LedgerType) (b : ℕ) :
    (LedgerService.debit w a t k b).Uses φ := by
  simp [LedgerService.debit, hw, hk]

lemma ledger_credit_uses (hk : m k) (w : ℕ) (a : ℤ) (t : LedgerType) (b : ℕ) :
    (LedgerService.credit w a t k b).Uses φ := by
  simp [LedgerService.credit, hw, hk]

lemma wallet_debit_uses (hk : m k) (hu : u k) (w : ℕ) (a : ℤ) (t : LedgerType) (b : ℕ) :
    (P.wallet.debit w a t k b).Uses φ := by
  have hmove (s : OperatorSession) (n : ℕ) :=
    moveBet_uses hw hk hu s ⟨s.operatorId, w, a, k, b⟩ n rfl
  cases hP : P.operatorMode <;>
    simp [Params.wallet, hP, walletRouter, ledgerService, seamlessOperatorWallet,
      SeamlessOperatorWallet.debit, ledger_debit_uses hw hk, hmove, hw]

lemma wallet_credit_uses (hk : m k) (w : ℕ) (a : ℤ) (t : LedgerType) (b : ℕ) :
    (P.wallet.credit w a t k b).Uses φ := by
  have hmove (s : OperatorSession) (n : ℕ) :=
    moveWin_uses hw hk ⟨s.operatorId, w, a, k, b⟩ n rfl
  cases hP : P.operatorMode <;>
    simp [Params.wallet, hP, walletRouter, ledgerService, seamlessOperatorWallet,
      SeamlessOperatorWallet.credit, ledger_credit_uses hw hk, hmove, hw]

lemma wallet_rollback_uses (hu : u k) (w b : ℕ) : (P.wallet.rollback w k b).Uses φ := by
  cases hP : P.operatorMode <;>
    simp [Params.wallet, hP, walletRouter, ledgerService, seamlessOperatorWallet,
      LedgerService.rollback, SeamlessOperatorWallet.rollback, rollbackOnce_uses hw hu, hw]

lemma wallet_reverse_uses (w : ℕ) {p : ReverseParams} (hk : m p.reverseKey)
    (hu : u p.originalKey) : (P.wallet.reverse w p).Uses φ := by
  have hledger : (LedgerService.reverse w p).Uses φ := by
    cases hd : p.originalDirection <;>
      simp [LedgerService.reverse, hd, ledger_credit_uses hw hk, ledger_debit_uses hw hk]
  cases hP : P.operatorMode <;>
    simp [Params.wallet, hP, walletRouter, ledgerService, seamlessOperatorWallet, hledger,
      SeamlessOperatorWallet.reverse, rollbackOnce_uses hw hu, hw]

omit hw in
lemma credit_uses (wl : ℕ) (amt : ℤ) (ty : LedgerType) (k : Key) (ref : ℕ) :
    (P.wallet.credit wl amt ty k ref).Uses
      fun s : Stmt => s.ofWallet ∧ (∀ k' ∈ s.key, k' = k) ∧ s.undone = none := by
  refine wallet_credit_uses (u := fun _ => False) (fun s hs hk hu => ⟨hs, fun k' h => (hk k' h).symm, ?_⟩)
    rfl wl amt ty ref
  exact Option.eq_none_iff_forall_not_mem.2 hu

end Wallet

section Writes

variable (id : ℕ)

abbrev Stmt.claimWin (mult : ℕ) (payout : ℤ) : Stmt :=
  .updateBets { id := some id, status := some [.active] }
    { status := some .cashedOut, cashoutMult := some mult, payout := some payout, settles := true }

abbrev Stmt.claimCancel : Stmt :=
  .updateBets { id := some id, status := some [.active] }
    { status := some .cancelled, settles := true }

abbrev Stmt.finishVoid : Stmt :=
  .updateBets { id := some id, status := some [.voiding] } { status := some .voided }

abbrev Stmt.markPending : Stmt := .updateBet id { status := some .payoutPending }

abbrev Stmt.markPaid (tx : Key) : Stmt :=
  .updateBets { id := some id, status := some [.payoutPending] }
    { status := some .cashedOut, payoutTxId := some tx }

end Writes

inductive Part
  | placeBet
  | cancelBet
  | cashOut
  | payWin
  | settleRound
  | voidBet
  | reconcilePayouts
  | refund
  | recover
  | heal
  | drain
  deriving DecidableEq

def Part.owns : Part → Key → Prop
  | placeBet, .debit _ => True
  | cancelBet, .refund _ => True
  | payWin, .payout _ | reconcilePayouts, .payout _ => True
  | voidBet, .voidReclaim _ | voidBet, .voidRefund _ => True
  | refund, .restartRefund _ | recover, .restartRefund _ | heal, .restartRefund _ => True
  | _, _ => False

def Part.undoes : Part → Key → Prop
  | placeBet, .debit _ | refund, .debit _ | recover, .debit _ | heal, .debit _ => True
  | voidBet, .payout _ | voidBet, .debit _ => True
  | drain, _ => True
  | _, _ => False

inductive Part.Writes : Part → Stmt → Prop
  | create (d : NewBet) : Writes placeBet (.createBet d)
  | activate (id : ℕ) (tx : Key) :
      Writes placeBet (.updateBets { id := some id, status := some [.reserving] }
        { status := some .active, debitTxId := some tx })
  | stampDebit (id : ℕ) (tx : Key) :
      Writes placeBet (.updateBets { id := some id, status := some [.reserving] }
        { debitTxId := some tx })
  | forget (id : ℕ) : Writes placeBet (.deleteBet id)
  | cancel (id : ℕ) : Writes cancelBet (.claimCancel id)
  | cashOut (id mult : ℕ) (payout : ℤ) : Writes cashOut (.claimWin id mult payout)
  | pending (id : ℕ) : Writes payWin (.markPending id)
  | paid (id : ℕ) (tx : Key) : Writes payWin (.updateBet id { payoutTxId := some tx })
  | bust (roundId : ℕ) :
      Writes settleRound (.updateBets { roundId := some roundId, status := some [.active] }
        { status := some .busted, settles := true })
  | claimVoid (id : ℕ) (s : BetStatus) (hs : s = .busted ∨ s = .cashedOut) :
      Writes voidBet (.updateBets { id := some id, status := some [s] }
        { status := some .voiding })
  | finishVoid (id : ℕ) :
      Writes voidBet (.updateBets { id := some id, status := some [.voiding] }
        { status := some .voided })
  | reconcile (id : ℕ) (tx : Key) : Writes reconcilePayouts (.markPaid id tx)
  | refunded (id : ℕ) :
      Writes refund (.updateBet id { status := some .cancelled, settles := true })
  | claimSlot (id : ℕ) :
      Writes recover (.updateBets { id := some id, status := some [.reserving] }
        { status := some .cancelling })
  | refundedSlot (id : ℕ) :
      Writes recover (.updateBet id { status := some .cancelled, settles := true })
  | forgetSlot (id : ℕ) : Writes recover (.deleteBet id)
  | healed (id : ℕ) : Writes heal (.claimCancel id)

def Part.Issues (p : Part) (s : Stmt) : Prop :=
  s.plain ∨ (s.ofWallet ∧ (∀ k ∈ s.key, p.owns k) ∧ ∀ k ∈ s.undone, p.undoes k) ∨ p.Writes s

/-- The statements of the service: it writes bets only in the ways of `Part.Writes`. -/
def Stmt.Issued (s : Stmt) : Prop := s.writesBets → ∃ p : Part, p.Writes s

lemma Stmt.issued_of_plain {s : Stmt} (h : s.plain) : s.Issued := by
  intro hs
  simp [Stmt.plain, hs] at h

lemma Part.Issues.writes {p : Part} {s : Stmt} (h : p.Issues s) (hs : s.writesBets) : p.Writes s := by
  rcases h with h | ⟨h, -⟩ | h
  · simp [Stmt.plain, hs] at h
  · cases s <;> simp_all [Stmt.writesBets, Stmt.ofWallet, Stmt.writesLedger, Stmt.callsOperator,
      Stmt.writesRollbacks]
  · exact h

lemma Part.Issues.owns {p : Part} {s : Stmt} {k : Key} (h : p.Issues s) (hk : s.key = some k) :
    p.owns k := by
  rcases h with h | ⟨-, h, -⟩ | h
  · cases s <;> simp_all [Stmt.plain]
  · exact h k hk
  · cases h <;> cases hk

lemma Part.Issues.undoes {p : Part} {s : Stmt} {k : Key} (h : p.Issues s)
    (hk : s.undone = some k) : p.undoes k := by
  rcases h with h | ⟨-, -, h⟩ | h
  · cases s <;> simp_all [Stmt.plain]
  · exact h k hk
  · cases h <;> cases hk

lemma Part.Issues.issued {p : Part} {s : Stmt} (h : p.Issues s) : s.Issued :=
  fun hs => ⟨p, h.writes hs⟩

section Parts

variable {P : Params}

lemma Part.issues_wallet {p : Part} (s : Stmt) (h : s.ofWallet) (hk : ∀ k ∈ s.key, p.owns k)
    (hu : ∀ k ∈ s.undone, p.undoes k) : p.Issues s :=
  .inr (.inl ⟨h, hk, hu⟩)

lemma plain_await {p : Part} {s : Stmt} (h : s.plain) : (await s).Uses p.Issues :=
  await_uses (.inl h)

attribute [local simp] Part.Issues Part.owns Part.undoes Part.Writes.create Part.Writes.activate
  Part.Writes.stampDebit Part.Writes.forget Part.Writes.cancel Part.Writes.cashOut
  Part.Writes.pending Part.Writes.paid Part.Writes.bust Part.Writes.finishVoid
  Part.Writes.reconcile Part.Writes.refunded Part.Writes.claimSlot Part.Writes.refundedSlot
  Part.Writes.forgetSlot Part.Writes.healed

lemma placeBet_uses (a : PlaceBet) : (placeBet P a).Uses Part.placeBet.Issues := by
  have hrg : (rgGate a).Uses Part.placeBet.Issues := by
    cases hr : rgOf a with
    | none => simp [rgGate, hr]
    | some x => cases hs : x.1.maxSessionSec <;> simp [rgGate, hr, hs]
  have hwallet : (wallet a.userId a.walletId).Uses Part.placeBet.Issues := by
    cases hw : a.walletId <;> simp [wallet]
  have hcaps (w : ℕ) (amt : ℤ) (bets : List (ℕ × Bet)) :
      (sessionCaps a w amt bets).Uses Part.placeBet.Issues := by
    cases hr : rgOf a <;> simp [sessionCaps, hr, sessionAccounting]
  have hreserve (slot : Slot) (w : ℕ × Wallet) (amt : ℤ) :
      (reserve P a slot w amt).Uses Part.placeBet.Issues := by
    simp [reserve, hcaps]
  have hactivate (b : ℕ) (tx : WalletTxResult) (ccy n : ℕ) :
      (activate b tx ccy n).Uses Part.placeBet.Issues := by
    induction n with
    | zero => trivial
    | succ n ih => simp [activate, ih]
  have hdebit (slot : Slot) (w : ℕ) (amt : ℤ) (b : ℕ) :
      (P.wallet.debit w amt .betDebit (.debit slot) b).Uses Part.placeBet.Issues :=
    wallet_debit_uses Part.issues_wallet (by simp) (by simp) w amt _ b
  simp [placeBet, hrg, hwallet, hreserve, debitAndActivate, hactivate, hdebit]

lemma cancelBet_uses (n u : ℕ) (p : Panel) : (cancelBet P n u p).Uses Part.cancelBet.Issues := by
  have hcredit (w : ℕ) (amt : ℤ) (b : ℕ) :
      (P.wallet.credit w amt .refund (.refund b) b).Uses Part.cancelBet.Issues :=
    wallet_credit_uses Part.issues_wallet (by simp) w amt _ b
  simp [cancelBet, BetsService.claimRefund, hcredit]

lemma payWin_uses (b : ℕ) (bet : Bet) (mult : ℕ) (payout : ℤ) (ccy : ℕ) :
    (payWin P b bet mult payout ccy).Uses Part.payWin.Issues := by
  have hcredit : (P.wallet.credit bet.walletId payout .payoutCredit (.payout b) b).Uses
      Part.payWin.Issues :=
    wallet_credit_uses Part.issues_wallet (by simp) _ _ _ _
  simp [payWin, hcredit]

lemma cashOut_uses (n u : ℕ) (p : Panel) (m : Option ℕ) :
    (cashOut P n u p m).Uses fun s => Part.cashOut.Issues s ∨ Part.payWin.Issues s := by
  have hplain (s : Stmt) (hs : s.plain) : Part.cashOut.Issues s ∨ Part.payWin.Issues s :=
    .inl (.inl hs)
  have hclaim (b mult : ℕ) (payout : ℤ) : Part.cashOut.Issues (.claimWin b mult payout) :=
    .inr (.inr (.cashOut b mult payout))
  have hpay (b : ℕ) (bet : Bet) (mult : ℕ) (payout : ℤ) (ccy : ℕ) :
      (payWin P b bet mult payout ccy).Uses
        fun s => Part.cashOut.Issues s ∨ Part.payWin.Issues s :=
    (payWin_uses b bet mult payout ccy).mono fun s hs => .inr hs
  cases m <;> simp [cashOut, multiplierAt, BetsService.claimWin, hplain, hclaim, hpay, -Part.Issues, -Part.owns, -Part.undoes]

lemma settleRound_uses (r : ℕ) : (settleRound r).Uses Part.settleRound.Issues := by
  simp [settleRound]

lemma performVoidReversals_uses (id : ℕ) (b : Bet) :
    (performVoidReversals P id b).Uses Part.voidBet.Issues := by
  have hreclaim : (P.wallet.reverse b.walletId ⟨.payout id, .voidReclaim id, b.payout, .credit,
      .payoutCredit, id, none⟩).Uses Part.voidBet.Issues :=
    wallet_reverse_uses Part.issues_wallet _ (by simp) (by simp)
  have hrefund : (P.wallet.reverse b.walletId ⟨.debit b.slot, .voidRefund id, b.amount, .debit,
      .refund, id, none⟩).Uses Part.voidBet.Issues :=
    wallet_reverse_uses Part.issues_wallet _ (by simp) (by simp)
  simp [performVoidReversals, hreclaim, hrefund]

lemma voidBet_uses (o b : ℕ) : (voidBet P o b).Uses Part.voidBet.Issues := by
  refine uses_bind.2 ⟨by simp, fun row _ => ?_⟩
  cases row with
  | none => trivial
  | some bet =>
      have hclaim (hs : bet.status = .busted ∨ bet.status = .cashedOut) :=
        Part.Writes.claimVoid b bet.status hs
      cases hst : bet.status <;> simp_all [performVoidReversals_uses, BetsService.claimVoid]

lemma reconcileVoidingBets_uses (l : ℕ) : (reconcileVoidingBets P l).Uses Part.voidBet.Issues := by
  have hone (n : ℕ) (b : ℕ × Bet) : (reconcileVoidOne P n b).Uses Part.voidBet.Issues := by
    simp [reconcileVoidOne, performVoidReversals_uses]
  exact uses_compositional.bind (by simp) fun _ => uses_loop _ fun n b _ => hone n b

lemma reconcileOne_uses (n : ℕ) (b : ℕ × Bet) :
    (reconcileOne P n b).Uses Part.reconcilePayouts.Issues := by
  have hcredit (w : ℕ) (amt : ℤ) (b : ℕ) :
      (P.wallet.credit w amt .payoutCredit (.payout b) b).Uses Part.reconcilePayouts.Issues :=
    wallet_credit_uses Part.issues_wallet (by simp) w amt _ b
  simp [reconcileOne, hcredit]

lemma reconcilePendingPayouts_uses (l : ℕ) :
    (reconcilePendingPayouts P l).Uses Part.reconcilePayouts.Issues :=
  uses_compositional.bind (plain_await rfl) fun _ => uses_loop _ fun n b _ => reconcileOne_uses n b

lemma refundOne_uses (b : ℕ × Bet) : (refundOne P () b).Uses Part.refund.Issues := by
  have hreverse : (P.wallet.reverse b.2.walletId ⟨.debit b.2.slot, .restartRefund b.1, b.2.amount,
      .debit, .refund, b.1, some .restartRefund⟩).Uses Part.refund.Issues :=
    wallet_reverse_uses Part.issues_wallet _ (by simp) (by simp)
  simp [refundOne, hreverse]

lemma closeAndRefundRound_uses (r : ℕ) : (closeAndRefundRound P r).Uses Part.refund.Issues :=
  uses_compositional.bind (plain_await rfl) fun _ => uses_compositional.bind
    (uses_loop _ fun _ b _ => refundOne_uses b) fun _ => plain_await rfl

lemma recoverOne_uses (n : ℕ) (b : ℕ × Bet) : (recoverOne P n b).Uses Part.recover.Issues := by
  have hrollback : (P.wallet.rollback b.2.walletId (.debit b.2.slot) b.1).Uses Part.recover.Issues :=
    wallet_rollback_uses Part.issues_wallet (by simp) _ _
  have hcredit : (P.wallet.credit b.2.walletId b.2.amount .refund (.restartRefund b.1) b.1).Uses
      Part.recover.Issues :=
    wallet_credit_uses Part.issues_wallet (by simp) _ _ _ _
  simp [recoverOne, claimSlot, reverseSlot, hrollback, hcredit]

lemma recoverReservingBets_uses (t : ℕ) :
    (recoverReservingBets P t).Uses Part.recover.Issues := by
  have hcutoff : (cutoffOf t).Uses Part.recover.Issues := by simp [cutoffOf]
  exact uses_compositional.bind hcutoff fun _ => uses_compositional.bind (plain_await rfl) fun _ =>
    uses_loop _ fun n b _ => recoverOne_uses n b

lemma healOne_uses (n : ℕ) (b : ℕ × Bet) : (healOne P n b).Uses Part.heal.Issues := by
  have hreverse : (P.wallet.reverse b.2.walletId ⟨.debit b.2.slot, .restartRefund b.1, b.2.amount,
      .debit, .refund, b.1, some .restartRefund⟩).Uses Part.heal.Issues :=
    wallet_reverse_uses Part.issues_wallet _ (by simp) (by simp)
  simp [healOne, hreverse]

lemma recoverStrandedActiveBets_uses (t : ℕ) :
    (recoverStrandedActiveBets P t).Uses Part.heal.Issues :=
  uses_compositional.bind (plain_await rfl) fun _ => uses_compositional.bind (plain_await rfl)
    fun _ => uses_loop _ fun n b _ => healOne_uses n b

lemma drainOne_uses (n : ℕ) (r : RollbackRef × WalletRollback) :
    (drainOne n r).Uses Part.drain.Issues :=
  drainOne_wallet_uses Part.issues_wallet n r (by simp)

lemma drainPending_uses (m : Bool) (l : ℕ) : (drainPending m l).Uses Part.drain.Issues := by
  cases m with
  | false => trivial
  | true =>
      refine uses_compositional.bind (uses_compositional.catching ?_ fun _ => trivial) fun _ =>
        uses_loop _ fun n r _ => drainOne_uses n r
      exact uses_compositional.bind (plain_await rfl) fun _ => plain_await rfl

@[reducible] def Stmt.offEngine : Stmt → Bool
  | readState _ | setState _ _ | enterPhase _ _ _ | beginStart _ | stop _ | schedule _ _ _
  | scheduleCrash _ | emitSettle _ _ | raceWon _ | raceLost _ | assertStillLeader _ | ensureChain
  | allocateSeed | createRound _ _ _ | stampCrashed _ | revealSeed _ | mirror _ => false
  | updateRound _ d => d.status = some .completed && d.startedAt.isNone
  | _ => true

/-- What the calls of the players and of a round are put together from; `ok` holds of the bets placed. -/
structure BettingParts (P : Params) (K : (α : Type) → Program game α → Prop)
    (ok : PlaceBet → Prop := fun _ => True) : Prop where
  aside : ∀ {α : Type} {p : Program game α}, p.Uses (fun s : Stmt => s.plain ∧ s.offEngine) → K α p
  placeBet : ∀ a, ok a → K _ (BetsService.placeBet P a)
  cancelBet : ∀ n u p, K _ (BetsService.cancelBet P n u p)
  cashOut : ∀ n u p m, K _ (BetsService.cashOut P n u p m)
  settleRound : ∀ r, K _ (BetsService.settleRound r)

structure GameParts (P : Params) (K : (α : Type) → Program game α → Prop)
    (ok : PlaceBet → Prop := fun _ => True) : Prop extends BettingParts P K ok where
  voidBet : ∀ o b, K _ (BetsService.voidBet P o b)
  reconcileVoidingBets : ∀ l, K _ (BetsService.reconcileVoidingBets P l)
  reconcilePendingPayouts : ∀ l, K _ (BetsService.reconcilePendingPayouts P l)
  closeAndRefundRound : ∀ r, K _ (GameEngineService.closeAndRefundRound P r)
  recoverReservingBets : ∀ t, K _ (GameEngineService.recoverReservingBets P t)
  recoverStrandedActiveBets : ∀ t, K _ (GameEngineService.recoverStrandedActiveBets P t)
  drainPending : ∀ l, K _ (WalletRollbackService.drainPending P.operatorMode l)

structure Parts (P : Params) (K : (α : Type) → Program game α → Prop)
    (ok : PlaceBet → Prop := fun _ => True) : Prop extends GameParts P K ok where
  plain : ∀ {α : Type} {p : Program game α}, p.Uses (fun s : Stmt => s.plain) → K α p
  aside hp := plain (hp.mono fun _ hs => hs.1)

lemma GameParts.imp {K K' : (α : Type) → Program game α → Prop} (h : GameParts P K)
    (hK : ∀ {α : Type} {p : Program game α}, K α p → K' α p) : GameParts P K' where
  aside hp := hK (h.aside hp)
  placeBet a ha := hK (h.placeBet a ha)
  cancelBet n u p := hK (h.cancelBet n u p)
  cashOut n u p m := hK (h.cashOut n u p m)
  settleRound r := hK (h.settleRound r)
  voidBet o b := hK (h.voidBet o b)
  reconcileVoidingBets l := hK (h.reconcileVoidingBets l)
  reconcilePendingPayouts l := hK (h.reconcilePendingPayouts l)
  closeAndRefundRound r := hK (h.closeAndRefundRound r)
  recoverReservingBets t := hK (h.recoverReservingBets t)
  recoverStrandedActiveBets t := hK (h.recoverStrandedActiveBets t)
  drainPending l := hK (h.drainPending l)

lemma Parts.uses_and {φ ψ : Stmt → Prop} (h : Parts P fun _ p => p.Uses φ)
    (h' : Parts P fun _ p => p.Uses ψ) : Parts P fun _ p => p.Uses fun s => φ s ∧ ψ s where
  plain hp := (h.plain hp).and (h'.plain hp)
  placeBet a ha := (h.placeBet a ha).and (h'.placeBet a ha)
  cancelBet n u p := (h.cancelBet n u p).and (h'.cancelBet n u p)
  cashOut n u p m := (h.cashOut n u p m).and (h'.cashOut n u p m)
  settleRound r := (h.settleRound r).and (h'.settleRound r)
  voidBet o b := (h.voidBet o b).and (h'.voidBet o b)
  reconcileVoidingBets l := (h.reconcileVoidingBets l).and (h'.reconcileVoidingBets l)
  reconcilePendingPayouts l := (h.reconcilePendingPayouts l).and (h'.reconcilePendingPayouts l)
  closeAndRefundRound r := (h.closeAndRefundRound r).and (h'.closeAndRefundRound r)
  recoverReservingBets t := (h.recoverReservingBets t).and (h'.recoverReservingBets t)
  recoverStrandedActiveBets t := (h.recoverStrandedActiveBets t).and (h'.recoverStrandedActiveBets t)
  drainPending l := (h.drainPending l).and (h'.drainPending l)

end Parts

section Plain

variable {s : Stmt}

lemma await_plain (h : s.plain) : (await s).Uses fun s : Stmt => s.plain := await_uses h

lemma enter_plain (n : ℕ) (phase : Phase) : (enter n phase).Uses fun s : Stmt => s.plain := by
  cases phase <;> simp [enter, enterWaiting, enterBetting, enterRunning, enterCrashed, enterSettling,
    enterCompleted, whenStateAndLeader, whenLeader, stillLeader]

lemma transition_plain (n : ℕ) (phase : Phase) :
    (transition n phase).Uses fun s : Stmt => s.plain := by
  have hsafe : (safe n phase).Uses fun s : Stmt => s.plain :=
    uses_compositional.catching
      (uses_compositional.bind (enter_plain n phase) fun _ => await_plain rfl)
      fun _ => await_plain rfl
  exact uses_compositional.bind hsafe fun _ => trivial

end Plain

lemma await_aside {s : Stmt} (hs : s.plain && s.offEngine) :
    (await s).Uses fun s : Stmt => s.plain ∧ s.offEngine :=
  await_uses (by simpa using hs)

@[reducible] def Call.ofBetting : Call → Bool
  | placeBet _ | cancelBet _ _ _ | cashOut _ _ _ _ | evaluateAutoCashouts _ _ | onTick _ | settleRound _ => true
  | _ => false

@[reducible] def Event.ofBetting : Event → Bool
  | call c => c.ofBetting
  | _ => true

namespace BettingParts

variable {P : Params} {K : (α : Type) → Program game α → Prop} {ok : PlaceBet → Prop}
  (h : BettingParts P K ok) (hK : Compositional K)
include h hK

lemma evaluateAutoCashouts (n m : ℕ) : K _ (BetsService.evaluateAutoCashouts P n m) := by
  refine hK.bind (h.aside (await_aside rfl)) fun state => ?_
  split
  · exact hK.ret _
  · split
    · exact hK.ret _
    · refine hK.bind (h.aside (await_aside rfl)) fun due => hK.loop _ fun results b => ?_
      refine hK.bind (hK.attempt (h.cashOut _ _ _ _)) fun r => ?_
      split <;> exact hK.ret _

lemma onTick (n : ℕ) : K _ (Game.onTick P n) := by
  refine hK.bind (h.aside (await_aside rfl)) fun state => ?_
  split
  · exact hK.ret _
  · split
    · exact hK.ret _
    · exact h.evaluateAutoCashouts hK n _

lemma call (c : Call) (hc : c.ofBetting) (hok : ∀ a, c = .placeBet a → ok a) : K _ (c.prog P) := by
  cases c with
  | placeBet a => exact hK.map (h.placeBet a (hok a rfl))
  | cancelBet n u p => exact hK.map (h.cancelBet n u p)
  | cashOut n u p m => exact hK.map (h.cashOut n u p m)
  | evaluateAutoCashouts n m => exact hK.map (h.evaluateAutoCashouts hK n m)
  | onTick n => exact hK.map (h.onTick hK n)
  | settleRound r => exact hK.map (h.settleRound r)
  | _ => cases hc

end BettingParts

section GameParts

variable {P : Params} {K : (α : Type) → Program game α → Prop} {ok : PlaceBet → Prop}
  (h : GameParts P K ok) (hK : Compositional K)
include h hK

namespace GameParts

lemma recoverInterruptedRounds : K _ (GameEngineService.recoverInterruptedRounds P) :=
  hK.bind (h.recoverReservingBets 0) fun _ => hK.bind (h.recoverStrandedActiveBets 0) fun _ =>
    hK.bind (h.aside (await_aside rfl)) fun _ => hK.loop _ fun _ r => h.closeAndRefundRound r.1

lemma call (c : Call) (hc : ∀ n, c ≠ .start n) (hok : ∀ a, c = .placeBet a → ok a) : K _ (c.prog P) := by
  cases c with
  | placeBet | cancelBet | cashOut | evaluateAutoCashouts | onTick | settleRound =>
      exact h.toBettingParts.call hK _ rfl hok
  | closeAndRefundRound r => exact hK.bind (h.closeAndRefundRound r) fun _ => hK.ret _
  | recoverStrandedActiveBets t => exact hK.map (h.recoverStrandedActiveBets t)
  | recoverReservingBets t => exact hK.map (h.recoverReservingBets t)
  | reconcilePendingPayouts l => exact hK.map (h.reconcilePendingPayouts l)
  | voidBet o b => exact hK.map (h.voidBet o b)
  | reconcileVoidingBets l => exact hK.map (h.reconcileVoidingBets l)
  | drainPending l => exact hK.map (h.drainPending l)
  | start n => exact absurd rfl (hc n)
  | recoverInterruptedRounds => exact hK.bind (h.recoverInterruptedRounds hK) fun _ => hK.ret _

end GameParts

end GameParts

namespace Parts

variable {P : Params} {K : (α : Type) → Program game α → Prop} {ok : PlaceBet → Prop}
  (h : Parts P K ok) (hK : Compositional K)
include h hK

omit hK in
lemma transition (n : ℕ) (phase : Phase) : K _ (Game.transition n phase) :=
  h.plain (transition_plain n phase)

lemma resumeRound (n : ℕ) (r : ℕ × Round) : K _ (GameEngineService.resumeRound P n r) := by
  have hcrash : K _ (honorThenCrash P n r.2.crashPoint) := by
    refine hK.bind (h.plain (by simp [stillLeader])) fun led => ?_
    split
    · exact hK.bind (h.evaluateAutoCashouts hK n _) fun _ => h.plain (enter_plain n .crashed)
    · exact hK.ret _
  refine hK.bind (h.plain (await_plain rfl)) fun now => hK.bind (h.plain (await_plain rfl)) fun _ =>
    hK.bind (h.plain (await_plain rfl)) fun _ => ?_
  split
  · exact h.plain (await_plain rfl)
  · exact h.plain (await_plain rfl)
  · dsimp only
    split
    · exact h.plain (await_plain rfl)
    · exact hcrash
  · exact h.plain (by simp)
  · exact h.plain (by simp)
  · exact h.plain (enter_plain n .waiting)

omit hK in
lemma closeStaleExtra (n : ℕ) (r : ℕ × Round) :
    K _ (GameEngineService.closeStaleExtra P n r) := by
  unfold GameEngineService.closeStaleExtra
  split
  · exact h.plain (by simp)
  · exact h.closeAndRefundRound r.1

lemma resumeOrRecover (n : ℕ) : K _ (GameEngineService.resumeOrRecover P n) := by
  refine hK.bind (h.recoverReservingBets 0) fun _ =>
    hK.bind (h.plain (await_plain rfl)) fun rounds => ?_
  split
  · exact hK.ret _
  · refine hK.bind (hK.loop _ fun _ => h.closeStaleExtra n) fun _ =>
      hK.bind (h.plain (await_plain rfl)) fun now => ?_
    split
    · exact hK.bind (h.closeAndRefundRound _) fun _ => hK.ret _
    · exact hK.bind (h.resumeRound hK n _) fun _ => hK.ret _

lemma start (n : ℕ) : K _ (GameEngineService.start P n) := by
  refine hK.bind (h.plain (await_plain rfl)) fun began => ?_
  split
  · refine hK.bind (h.plain (await_plain rfl)) fun _ =>
      hK.bind (h.recoverStrandedActiveBets 0) fun _ =>
        hK.bind (h.resumeOrRecover hK n) fun resumed => ?_
    split
    · exact hK.ret _
    · exact h.plain (enter_plain n .waiting)
  · exact hK.ret _

lemma call (c : Call) (hok : ∀ a, c = .placeBet a → ok a) : K _ (c.prog P) := by
  by_cases hc : ∃ n, c = .start n
  · obtain ⟨n, rfl⟩ := hc
    exact hK.bind (h.start hK n) fun _ => hK.ret _
  · exact h.toGameParts.call hK c (fun n hn => hc ⟨n, hn⟩) hok

end Parts

lemma parts_uses {P : Params} {φ : Stmt → Prop} (hplain : ∀ s : Stmt, s.plain → φ s)
    (hpart : ∀ (p : Part) (s : Stmt), p.Issues s → φ s) : Parts P fun _ p => p.Uses φ where
  plain hp := hp.mono hplain
  placeBet a _ := (placeBet_uses a).mono (hpart _)
  cancelBet n u p := (cancelBet_uses n u p).mono (hpart _)
  cashOut n u p m := (cashOut_uses n u p m).mono fun s hs => hs.elim (hpart _ s) (hpart _ s)
  settleRound r := (settleRound_uses r).mono (hpart _)
  voidBet o b := (voidBet_uses o b).mono (hpart _)
  reconcileVoidingBets l := (reconcileVoidingBets_uses l).mono (hpart _)
  reconcilePendingPayouts l := (reconcilePendingPayouts_uses l).mono (hpart _)
  closeAndRefundRound r := (closeAndRefundRound_uses r).mono (hpart _)
  recoverReservingBets t := (recoverReservingBets_uses t).mono (hpart _)
  recoverStrandedActiveBets t := (recoverStrandedActiveBets_uses t).mono (hpart _)
  drainPending l := (drainPending_uses _ l).mono (hpart _)

/-- What the surroundings start is a call, or a transition whose timer ran out. -/
lemma environment_starts {P : Params} {e : Event} {n : ℕ} {σ σ' : State}
    {p : Program game Outcome} (h : environment P e n σ = some (σ', some p)) :
    (∃ c : Call, p = c.prog P ∧ (e = .call c ∨ ∃ node r, e = .onSettle node r ∧ c = .settleRound r)) ∨
      ∃ node phase, p = transition node phase ∧ e = .timer node := by
  cases e with
  | call c =>
      obtain ⟨-, rfl⟩ : σ = σ' ∧ c.prog P = p := by simpa [environment] using h
      exact .inl ⟨c, rfl, .inl rfl⟩
  | onSettle node r =>
      simp only [environment] at h
      split_ifs at h
      obtain ⟨-, hp⟩ := Prod.mk.inj (Option.some.inj h)
      exact .inl ⟨.settleRound r, (Option.some.inj hp).symm, .inr ⟨node, r, rfl, rfl⟩⟩
  | timer node =>
      simp only [environment, State.fire] at h
      split at h
      · cases h
      · split_ifs at h <;> obtain ⟨-, hp⟩ := Prod.mk.inj (Option.some.inj h)
        · exact .inr ⟨node, _, (Option.some.inj hp).symm, rfl⟩
        · cases hp
  | deadline node j =>
      simp only [environment] at h
      split_ifs at h
      cases (Prod.mk.inj (Option.some.inj h)).2
  | tick ms | leaderLost node | boot node => cases (Prod.mk.inj (Option.some.inj h)).2

lemma environment_betting {P : Params} {K : (α : Type) → Program game α → Prop} {ok : PlaceBet → Prop}
    (h : BettingParts P K ok) (hplain : ∀ {α : Type} {p : Program game α}, p.Uses (fun s : Stmt => s.plain) → K α p)
    (hK : Compositional K) {e : Event} {n : ℕ} {σ σ' : State} {p : Program game Outcome}
    (he : environment P e n σ = some (σ', some p)) (hb : e.ofBetting)
    (hok : ∀ a, e = .call (.placeBet a) → ok a) : K _ p := by
  rcases environment_starts he with ⟨c, rfl, rfl | ⟨node, r, rfl, rfl⟩⟩ | ⟨node, phase, rfl, -⟩
  · exact h.call hK c hb fun a ha => hok a (ha ▸ rfl)
  · exact hK.map (h.settleRound r)
  · exact hplain (transition_plain node phase)

lemma environment_parts_of {P : Params} {K : (α : Type) → Program game α → Prop} {ok : PlaceBet → Prop}
    (h : Parts P K ok) (hK : Compositional K) {e : Event} {n : ℕ} {σ σ' : State} {p : Program game Outcome}
    (he : environment P e n σ = some (σ', some p)) (hok : ∀ a, e = .call (.placeBet a) → ok a) : K _ p := by
  rcases environment_starts he with ⟨c, rfl, hc⟩ | ⟨node, phase, rfl, -⟩
  · refine h.call hK c fun a ha => ?_
    subst ha
    rcases hc with rfl | ⟨node, r, -, hc⟩
    · exact hok a rfl
    · cases hc
  · exact h.transition node phase

lemma environment_parts {P : Params} {K : (α : Type) → Program game α → Prop} (h : Parts P K)
    (hK : Compositional K) {e : Event} {n : ℕ} {σ σ' : State} {p : Program game Outcome}
    (he : environment P e n σ = some (σ', some p)) : K _ p :=
  environment_parts_of h hK he fun _ _ => trivial

lemma environment_issued {P : Params} {e : Event} {n : ℕ} {σ σ' : State}
    {p : Program game Outcome} (h : environment P e n σ = some (σ', some p)) :
    p.Uses Stmt.Issued :=
  environment_parts (parts_uses (fun _ => Stmt.issued_of_plain) fun _ _ => Part.Issues.issued)
    uses_compositional h

end VaultRun.Game
