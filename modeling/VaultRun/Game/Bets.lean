import VaultRun.Game.Wallet

/-!
The bet operations of the game: placing, cancelling, cashing out, settling and voiding a bet, each as
the sequence of its reads, claims and wallet calls.
-/

namespace VaultRun.Game

open VaultRun.Concurrency Program

inductive BetResult
  | ok (balance : ℤ) (betId : Option ℕ) (currency : ℕ)
  | rejected (reason : Reason)
  deriving DecidableEq, Repr

inductive CashoutResult
  | paid (multiplier : ℕ) (payout balance : ℤ) (currency : ℕ)
  | pending (multiplier : ℕ) (payout : ℤ) (currency : ℕ)
  | rejected (reason : Reason)
  deriving DecidableEq, Repr

structure VoidResult where
  status : BetStatus
  reversed : Bool
  refundedStake : ℤ
  reclaimedPayout : ℤ
  deriving DecidableEq, Repr

structure PlaceBet where
  node : ℕ
  userId : ℕ
  panel : Panel
  amount : ℚ
  autoCashout : Option ℕ := none
  walletId : Option ℕ := none
  limits : Option PerBetLimits := none
  demo : Bool := false
  rgCtx : Option RgContext := none
  operatorId : Option ℕ := none

namespace BetsService

variable (P : Params)

def wallet (userId : ℕ) (walletId : Option ℕ) : Program game (ℕ × Wallet) :=
  match walletId with
  | some id => do
      let w ← await (.findWallet id)
      if w.userId ≠ userId then raise .walletOwnership else pure (id, w)
  | none => await (.findUserWallet userId)

def total (amount : Bet → ℤ) (bets : List (ℕ × Bet)) : ℤ :=
  bets.foldr (fun b acc => amount b.2 + acc) 0

structure SessionTotals where
  wagered : ℤ
  won : ℤ

def SessionTotals.net (t : SessionTotals) : ℤ := t.wagered - t.won

def sessionAccounting (walletId since : ℕ) : Program game SessionTotals := do
  let bets ← await (.findBets { sessionOf := some (walletId, since) } none)
  pure ⟨total (·.amount) (bets.filter (isWageredStatus ·.2.status)),
    total (·.payout) (bets.filter (isWonStatus ·.2.status))⟩

/-- The limits that apply, with the start of the session: demo and guest bets have none, and a start at 0 counts as
no start. -/
def rgOf (a : PlaceBet) : Option (EffectiveRg × ℕ × Bool) := do
  let ctx ← a.rgCtx
  let rg ← ctx.rg
  let started ← ctx.sessionStartedAt
  if a.demo || started = 0 then none else some (rg, started, ctx.rgPending)

def rgGate (a : PlaceBet) : Program game (Option Reason) :=
  match rgOf a with
  | none => pure none
  | some (rg, started, rgPending) =>
      if rg.enforceRealityCheck && rgPending then pure (some .realityCheckPending)
      else
        match rg.maxSessionSec with
        | none => pure none
        | some sec => do
            let now ← await .dateNow
            pure (if started + sec * 1000 ≤ now then some .sessionTimeLimit else none)

/-- The wager and loss caps of a session, inside the lock of the round. -/
def sessionCaps (a : PlaceBet) (walletId : ℕ) (amt : ℤ) (roundBets : List (ℕ × Bet)) :
    Program game Unit :=
  match rgOf a with
  | none => pure ()
  | some (rg, started, _) =>
      if rg.maxSessionLoss.isNone && rg.maxSessionWager.isNone then pure ()
      else do
        let acc ← sessionAccounting walletId started
        let reserved := total (·.amount) (roundBets.filter fun b => b.2.walletId = walletId ∧
          b.2.status = .reserving)
        if rg.maxSessionWager.any (· < acc.wagered + reserved + amt) then
          raise (.reserveRejected .sessionWagerLimit)
        else if rg.maxSessionLoss.any (· < acc.net + reserved + amt) then
          raise (.reserveRejected .sessionLossLimit)
        else pure ()

/-- Phase 1: the exposure check and the insert, in one transaction under the lock of the round. -/
def reserve (a : PlaceBet) (slot : Slot) (w : ℕ × Wallet) (amt : ℤ) : Program game ℕ := do
  await (.lockRound slot.roundId)
  catching (do
    let roundBets ← await (.findBets
      { roundId := some slot.roundId, status := some [.active, .reserving] } none)
    let currentExposure := total (P.risk.potentialPayout ·.amount)
      (roundBets.filter (·.2.currency = w.2.currency))
    if !P.risk.checkRoundExposure currentExposure amt then
      raise (.reserveRejected .roundExposureCap)
    else
      sessionCaps a w.1 amt roundBets
      await (.createBet ⟨slot, w.1, amt, a.autoCashout, a.demo, a.operatorId, w.2.currency,
        a.limits.map (·.maxWinPerBet)⟩))
    fun e => do
      await (.endTx slot.roundId)
      raise e

def reserveReason : Err → Reason
  | .reserveRejected reason => reason
  | .p2002 => .alreadyBet
  | _ => .betFailed

/-- The flip of a debited slot, with this many tries left. -/
def activate (betId : ℕ) (tx : WalletTxResult) (currency : ℕ) : ℕ → Program game BetResult
  | 0 => pure (.rejected .betFailed)
  | left + 1 => do
      match ← (await (.updateBets { id := some betId, status := some [.reserving] }
          { status := some .active, debitTxId := some tx.id })).attempt with
      | .ok count =>
          if count = 0 then pure (.rejected .betFailed)
          else pure (.ok tx.balanceAfter (some betId) currency)
      | .error _ =>
          if left = 0 then
            let _ ← (await (.updateBets { id := some betId, status := some [.reserving] }
              { debitTxId := some tx.id })).attempt
            pure (.rejected .betFailed)
          else activate betId tx currency left

/-- Phase 2: the debit outside the lock, then the flip. -/
def debitAndActivate (slot : Slot) (w : ℕ × Wallet) (amt : ℤ) (betId : ℕ) :
    Program game BetResult := do
  match ← (P.wallet.debit w.1 amt .betDebit (.debit slot) betId).attempt with
  | .error e =>
      let _ ← (await (.deleteBet betId)).attempt
      pure (.rejected (if e = .insufficientBalance then .insufficientBalance else .betFailed))
  | .ok tx => activate betId tx w.2.currency 3

def placeBet (a : PlaceBet) : Program game BetResult := do
  match ← await (.publicState a.node) with
  | none => pure (.rejected .bettingClosed)
  | some state =>
      let amt := a.amount.floor
      let slot : Slot := ⟨state.roundId, a.userId, a.panel⟩
      if state.phase ≠ .betting then pure (.rejected .bettingClosed)
      else if !P.risk.checkBetAmount amt a.limits then pure (.rejected .invalidAmount)
      else
        match ← rgGate a with
        | some reason => pure (.rejected reason)
        | none =>
            let existing ← await (.findSlot slot)
            if existing.any (·.2.status ≠ .reserving) then pure (.rejected .alreadyBet)
            else
              match ← (wallet a.userId a.walletId).attempt with
              | .error _ => pure (.rejected .betFailed)
              | .ok w =>
                  match ← (reserve P a slot w amt).attempt with
                  | .error e => pure (.rejected (reserveReason e))
                  | .ok betId => debitAndActivate P slot w amt betId

/-- The claim of an active bet, and the refund of its stake. -/
def claimRefund (id : ℕ) (bet : Bet) (currency : ℕ) : Program game BetResult := do
  let claim ← await (.updateBets { id := some id, status := some [.active] }
    { status := some .cancelled, settles := true })
  if claim = 0 then pure (.rejected .noActiveBet)
  else
    let refund ← P.wallet.credit bet.walletId bet.amount .refund (.refund id) id
    pure (.ok refund.balanceAfter none currency)

def cancelBet (node userId : ℕ) (panel : Panel) : Program game BetResult := do
  match ← await (.publicState node) with
  | none => pure (.rejected .bettingClosed)
  | some state =>
      if state.phase ≠ .betting then pure (.rejected .bettingClosed)
      else
        match ← await (.findSlot ⟨state.roundId, userId, panel⟩) with
        | none => pure (.rejected .noActiveBet)
        | some (id, bet) =>
            let wallet ← await (.findWallet bet.walletId)
            if bet.status ≠ .active then pure (.rejected .noActiveBet)
            else claimRefund P id bet wallet.currency

/-- The credit of a claimed win; whatever it throws, the bet is left to the reconciler. -/
def payWin (id : ℕ) (bet : Bet) (mult : ℕ) (payout : ℤ) (currency : ℕ) :
    Program game CashoutResult := do
  match ← (P.wallet.credit bet.walletId payout .payoutCredit (.payout id) id).attempt with
  | .error _ =>
      await (.updateBet id { status := some .payoutPending })
      pure (.pending mult payout currency)
  | .ok credit =>
      await (.updateBet id { payoutTxId := some credit.id })
      await (.updateProfile bet.slot.userId payout mult)
      pure (.paid mult payout credit.balanceAfter currency)

/-- The claim of an active bet at the multiplier, and the payment of the win. -/
def claimWin (id : ℕ) (bet : Bet) (mult currency : ℕ) : Program game CashoutResult := do
  let payout := P.risk.capPayout (floorPayout bet.amount mult) bet.maxWinPerBet
  let claim ← await (.updateBets { id := some id, status := some [.active] }
    { status := some .cashedOut, cashoutMult := some mult, payout := some payout, settles := true })
  if claim = 0 then pure (.rejected .noActiveBet)
  else payWin P id bet mult payout currency

/-- `atMultiplier ?? this.engine.currentMultiplier()`. -/
def multiplierAt (node : ℕ) : Option ℕ → Program game ℕ
  | some m => pure m
  | none => await (.currentMultiplier node)

def cashOut (node userId : ℕ) (panel : Panel) (atMultiplier : Option ℕ) :
    Program game CashoutResult := do
  match ← await (.publicState node) with
  | none => pure (.rejected .tooLate)
  | some state =>
      if state.phase ≠ .running then pure (.rejected .tooLate)
      else
        let mult ← multiplierAt node atMultiplier
        match ← await (.findSlot ⟨state.roundId, userId, panel⟩) with
        | none => pure (.rejected .noActiveBet)
        | some (id, bet) =>
            let wallet ← await (.findWallet bet.walletId)
            match ← await (.findRound bet.slot.roundId) with
            | none => raise .notFound
            | some round =>
                if bet.status ≠ .active then pure (.rejected .noActiveBet)
                else if round.status ≠ .running ∨ round.crashPoint ≤ mult then
                  pure (.rejected .tooLate)
                else claimWin P id bet mult wallet.currency

/-- One turn of the loop of `evaluateAutoCashouts`. -/
def autoCashOne (node : ℕ) (results : List CashoutResult) (b : ℕ × Bet) :
    Program game (List CashoutResult) := do
  match ← (cashOut P node b.2.slot.userId b.2.slot.panel b.2.autoCashout).attempt with
  | .error _ => pure results
  | .ok (.rejected _) => pure results
  | .ok r => pure (results ++ [r])

def evaluateAutoCashouts (node multiplier : ℕ) : Program game (List CashoutResult) := do
  match ← await (.publicState node) with
  | none => pure []
  | some state =>
      if state.phase ≠ .running then pure []
      else
        let due ← await (.findBets { roundId := some state.roundId, status := some [.active]
                                     autoCashoutLe := some multiplier } none)
        loop (autoCashOne P node) [] due

def settleRound (roundId : ℕ) : Program game (List (ℕ × Panel)) := do
  let active ← await (.findBets { roundId := some roundId, status := some [.active] } none)
  if active.isEmpty then pure []
  else
    let _ ← await (.updateBets { roundId := some roundId, status := some [.active] }
      { status := some .busted, settles := true })
    pure (active.map fun b => (b.2.slot.userId, b.2.slot.panel))

def performVoidReversals (id : ℕ) (bet : Bet) : Program game Unit := do
  if 0 < bet.payout then
    P.wallet.reverse bet.walletId ⟨.payout id, .voidReclaim id, bet.payout, .credit, .payoutCredit,
      id, none⟩
  P.wallet.reverse bet.walletId ⟨.debit bet.slot, .voidRefund id, bet.amount, .debit, .refund, id,
    none⟩

/-- The claim of a settled bet, which a bet that is already being voided does not need. -/
def claimVoid (betId : ℕ) (status : BetStatus) : Program game ℕ :=
  if status = .voiding then pure 1
  else await (.updateBets { id := some betId, status := some [status] } { status := some .voiding })

def voidBet (operatorId betId : ℕ) : Program game VoidResult := do
  match ← await (.findBet betId) with
  | none => raise .betNotFound
  | some bet =>
      if bet.operatorId ≠ some operatorId then raise .betNotFound
      else if bet.status = .voided then pure ⟨.voided, false, bet.amount, bet.payout⟩
      else if bet.status = .cancelled then pure ⟨.cancelled, false, bet.amount, 0⟩
      else if bet.status = .active then raise .betNotSettled
      else if bet.status ∈ [BetStatus.reserving, .cancelling, .payoutPending] then
        raise .betTransient
      else
        let claim ← claimVoid betId bet.status
        if claim = 0 then raise .betStateChanged
        else
          performVoidReversals P betId bet
          let _ ← await (.updateBets { id := some betId, status := some [.voiding] }
            { status := some .voided })
          pure ⟨.voided, true, bet.amount, if 0 < bet.payout then bet.payout else 0⟩

/-- One turn of the loop of `reconcileVoidingBets`. -/
def reconcileVoidOne (finalized : ℕ) (b : ℕ × Bet) : Program game ℕ := do
  let done ← (do
    performVoidReversals P b.1 b.2
    await (.updateBets { id := some b.1, status := some [.voiding] }
      { status := some .voided })).attempt
  pure (if done.toOption.any (0 < ·) then finalized + 1 else finalized)

def reconcileVoidingBets (limit : ℕ) : Program game ℕ := do
  let stuck ← await (.findBets { status := some [.voiding] } (some limit))
  loop (reconcileVoidOne P) 0 stuck

/-- One turn of the loop of `reconcilePendingPayouts`. -/
def reconcileOne (recovered : ℕ) (b : ℕ × Bet) : Program game ℕ := do
  let done ← (do
    let credit ← P.wallet.credit b.2.walletId b.2.payout .payoutCredit (.payout b.1) b.1
    let count ← await (.updateBets { id := some b.1, status := some [.payoutPending] }
      { status := some .cashedOut, payoutTxId := some credit.id })
    if count = 0 then pure false
    else
      await (.updateProfile b.2.slot.userId b.2.payout (b.2.cashoutMult.getD 100))
      pure true).attempt
  pure (if done.toOption = some true then recovered + 1 else recovered)

def reconcilePendingPayouts (limit : ℕ) : Program game ℕ := do
  let pending ← await (.findBets { status := some [.payoutPending] } (some limit))
  loop (reconcileOne P) 0 pending

end BetsService

end VaultRun.Game
