import Mathlib.Data.Rat.Defs
import VaultRun.Data.Table

/-!
The rows the game keeps in its database, and the risk arithmetic over them. Money is in minor units,
multipliers are in hundredths, times are in milliseconds.
-/

namespace VaultRun.Game

inductive Panel
  | A
  | B
  deriving DecidableEq, Repr

inductive Phase
  | waiting
  | betting
  | running
  | crashed
  | settling
  | completed
  deriving DecidableEq, Repr

inductive BetStatus
  | reserving
  | cancelling
  | active
  | cashedOut
  | busted
  | cancelled
  | payoutPending
  | voiding
  | voided
  deriving DecidableEq, Repr

/-- The unique key `(roundId, userId, panel)` of a bet. -/
structure Slot where
  roundId : ℕ
  userId : ℕ
  panel : Panel
  deriving DecidableEq, Repr

/-- Idempotency keys, which the operator sees as transaction ids. `other` is any key that does not
come from a bet. -/
inductive Key
  | debit (slot : Slot)
  | payout (betId : ℕ)
  | refund (betId : ℕ)
  | restartRefund (betId : ℕ)
  | voidReclaim (betId : ℕ)
  | voidRefund (betId : ℕ)
  | other (n : ℕ)
  deriving DecidableEq, Repr

structure Bet where
  slot : Slot
  walletId : ℕ
  amount : ℤ
  autoCashout : Option ℕ
  status : BetStatus
  cashoutMult : Option ℕ
  payout : ℤ
  demo : Bool
  operatorId : Option ℕ
  currency : ℕ
  maxWinPerBet : Option ℤ
  debitTxId : Option Key
  payoutTxId : Option Key
  createdAt : ℕ
  settledAt : Option ℕ

structure Round where
  seedId : ℕ
  crashPoint : ℕ
  status : Phase
  phaseEndsAt : Option ℕ
  startedAt : Option ℕ
  crashedAt : Option ℕ
  settledAt : Option ℕ
  createdAt : ℕ

structure Wallet where
  userId : ℕ
  currency : ℕ
  balance : ℤ

inductive LedgerType
  | betDebit
  | payoutCredit
  | refund
  | adjustment
  deriving DecidableEq, Repr

structure LedgerTransaction where
  walletId : ℕ
  type : LedgerType
  amount : ℤ
  balanceAfter : ℤ
  refId : Option ℕ

/-- Why a rollback is emitted. -/
inductive Intent
  | ambiguousDebit
  | transientDebit
  | voidReclaim
  | voidRefund
  | restartRefund
  deriving DecidableEq, Repr

inductive RollbackStatus
  | pending
  | draining
  | confirmed
  deriving DecidableEq, Repr

/-- The once-only identity of a rollback, `dedupeKeyOf` with the operator it is owed to. -/
structure RollbackRef where
  operatorId : ℕ
  betId : ℕ
  reason : Intent
  deriving DecidableEq, Repr

structure WalletRollback where
  transactionId : Key
  amount : Option ℤ
  status : RollbackStatus
  attempts : ℕ
  leaseUntil : Option ℕ

structure WalletTxResult where
  id : Key
  balanceAfter : ℤ
  deriving DecidableEq, Repr

structure PerBetLimits where
  minBet : ℤ
  maxBet : ℤ
  maxWinPerBet : ℤ

structure RiskLimits extends PerBetLimits where
  maxMultiplier : ℤ
  maxRoundExposure : ℤ

namespace RiskLimits

variable (risk : RiskLimits)

def checkBetAmount (amount : ℤ) (limits : Option PerBetLimits) : Bool :=
  let l := limits.getD risk.toPerBetLimits
  ¬ (amount < l.minBet ∨ l.maxBet < amount)

def potentialPayout (amount : ℤ) : ℤ := min (amount * risk.maxMultiplier) risk.maxWinPerBet

def checkRoundExposure (currentExposure amount : ℤ) : Bool :=
  currentExposure + risk.potentialPayout amount ≤ risk.maxRoundExposure

def capPayout (payout : ℤ) (maxWinPerBet : Option ℤ) : ℤ :=
  min payout (min (maxWinPerBet.getD risk.maxWinPerBet) risk.maxWinPerBet)

end RiskLimits

/-- `stake × mult`, rounded down to a minor unit. -/
def floorPayout (stakeMinor : ℤ) (mult : ℕ) : ℤ := (stakeMinor * mult).tdiv 100

def isWageredStatus (s : BetStatus) : Bool :=
  s ∈ [BetStatus.active, .cashedOut, .busted, .payoutPending]

def isWonStatus (s : BetStatus) : Bool := s ∈ [BetStatus.cashedOut, .payoutPending]

/-- The statuses a follow-up pass of the reservation recovery selects. -/
def isTransientStatus (s : BetStatus) : Bool := s ∈ [BetStatus.reserving, .cancelling]

def Phase.isOpen (p : Phase) : Bool := p ≠ .completed

structure EffectiveRg where
  maxSessionSec : Option ℕ
  enforceRealityCheck : Bool
  maxSessionLoss : Option ℤ
  maxSessionWager : Option ℤ

structure RgContext where
  rg : Option EffectiveRg
  rgPending : Bool
  sessionStartedAt : Option ℕ

inductive Reason
  | bettingClosed
  | invalidAmount
  | realityCheckPending
  | sessionTimeLimit
  | alreadyBet
  | betFailed
  | roundExposureCap
  | sessionWagerLimit
  | sessionLossLimit
  | insufficientBalance
  | noActiveBet
  | tooLate
  deriving DecidableEq, Repr

end VaultRun.Game
