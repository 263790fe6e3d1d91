import VaultRun.Game.Statement

/-!
The wallet providers: the internal ledger, the operator's seamless wallet with its durable rollbacks,
and the router between them.
-/

namespace VaultRun.Game

open VaultRun.Concurrency Program

inductive Direction
  | debit
  | credit
  deriving DecidableEq, Repr

structure ReverseParams where
  originalKey : Key
  reverseKey : Key
  amount : ℤ
  originalDirection : Direction
  type : LedgerType
  refId : ℕ
  intent : Option Intent

structure WalletProvider where
  debit (walletId : ℕ) (amount : ℤ) (type : LedgerType) (key : Key) (refId : ℕ) :
    Program game WalletTxResult
  credit (walletId : ℕ) (amount : ℤ) (type : LedgerType) (key : Key) (refId : ℕ) :
    Program game WalletTxResult
  rollback (walletId : ℕ) (key : Key) (refId : ℕ) : Program game Unit
  reverse (walletId : ℕ) (p : ReverseParams) : Program game Unit

namespace LedgerService

def debit (walletId : ℕ) (amount : ℤ) (type : LedgerType) (key : Key) (refId : ℕ) :
    Program game WalletTxResult :=
  if amount ≤ 0 then raise .amountMustBePositive
  else await (.recordLedger walletId (-amount) type key refId)

def credit (walletId : ℕ) (amount : ℤ) (type : LedgerType) (key : Key) (refId : ℕ) :
    Program game WalletTxResult :=
  if amount ≤ 0 then raise .amountMustBePositive
  else await (.recordLedger walletId amount type key refId)

def rollback (_walletId : ℕ) (_key : Key) (_refId : ℕ) : Program game Unit := pure ()

def reverse (walletId : ℕ) (p : ReverseParams) : Program game Unit := do
  match p.originalDirection with
  | .debit =>
      let _ ← credit walletId p.amount p.type p.reverseKey p.refId
  | .credit =>
      let _ ← debit walletId p.amount p.type p.reverseKey p.refId

end LedgerService

def ledgerService : WalletProvider :=
  ⟨LedgerService.debit, LedgerService.credit, LedgerService.rollback, LedgerService.reverse⟩

namespace WalletRollbackService

def drainLeaseMs : ℕ := 60000

structure Claimed where
  alreadyConfirmed : Bool
  inFlight : Bool
  deriving DecidableEq, Repr

def hasLiveLease (row : WalletRollback) (now : ℕ) : Bool :=
  row.status = .draining && row.leaseUntil.any (now < ·)

def acquireLease (ref : RollbackRef) (row : WalletRollback) : Program game Bool := do
  let now ← await .dateNow
  let count ← await (.updateRollbacks
    { ref := ref, pinned := some (row.status, row.leaseUntil) }
    { status := some .draining, leaseUntil := some (some (now + drainLeaseMs)) })
  pure (count = 1)

def bumpAttempts (ref : RollbackRef) : Program game Unit :=
  (await (.updateRollback ref { attempts := (· + 1) })).catching fun _ => pure ()

/-- What a caller that does not own the rollback reports of the row it finds. -/
def lostTo (row : Option WalletRollback) : Claimed :=
  let confirmed := row.any (·.status = .confirmed)
  ⟨confirmed, !confirmed⟩

def claim (ref : RollbackRef) (transactionId : Key) (amount : Option ℤ) : Program game Claimed :=
  catching (do
    match ← await (.findRollback ref) with
    | some row =>
        if row.status = .confirmed then pure ⟨true, false⟩
        else
          let now ← await .dateNow
          if hasLiveLease row now then
            bumpAttempts ref
            pure ⟨false, true⟩
          else if ← acquireLease ref row then pure ⟨false, false⟩
          else
            let after ← await (.findRollback ref)
            bumpAttempts ref
            pure (lostTo after)
    | none =>
        let now ← await .dateNow
        catching (do
          await (.createRollback ref ⟨transactionId, amount, .draining, 0, some (now + drainLeaseMs)⟩)
          pure ⟨false, false⟩)
          fun e => if e = .p2002 then lostTo <$> await (.findRollback ref) else raise e)
    -- a store failure degrades to "not confirmed, not in flight": the caller emits
    fun _ => pure ⟨false, false⟩

def confirm (ref : RollbackRef) : Program game Unit :=
  catching (do
    let _ ← await (.updateRollbacks { ref := ref }
      { status := some .confirmed, leaseUntil := some none }))
    fun _ => pure ()

def recordEmitFailure (ref : RollbackRef) : Program game Unit :=
  catching (do
    let _ ← await (.updateRollbacks { ref := ref }
      { status := some .pending, leaseUntil := some none }))
    fun _ => pure ()

/-- One turn of the loop of `drainPending`. -/
def drainOne (confirmed : ℕ) (r : RollbackRef × WalletRollback) : Program game ℕ := do
  let acquired ← (acquireLease r.1 r.2).catching fun _ => pure false
  if !acquired then pure confirmed
  else
    catching (do
      await (.operatorRollback r.1.operatorId r.2.transactionId r.1.betId)
      confirm r.1
      pure (confirmed + 1))
      fun _ => do
        catching (await (.updateRollback r.1
          { status := some .pending, leaseUntil := some none, attempts := fun _ => r.2.attempts + 1 }))
          fun _ => pure ()
        pure confirmed

def drainPending (operatorMode : Bool) (limit : ℕ) : Program game ℕ :=
  if !operatorMode then pure 0
  else do
    let rows ← catching (do
        let now ← await .dateNow
        await (.findOwedRollbacks now limit))
      fun _ => pure []
    loop drainOne 0 rows

end WalletRollbackService

namespace SeamlessOperatorWallet

open WalletRollbackService

def maxRetries : ℕ := 3

/-- The single place a rollback is emitted from outside the drain. -/
def rollbackOnce (s : OperatorSession) (transactionId : Key) (refId : ℕ) (reason : Intent)
    (propagate : Bool) (amount : Option ℤ) : Program game Unit := do
  let ref : RollbackRef := ⟨s.operatorId, refId, reason⟩
  let claimed ← claim ref transactionId amount
  if claimed.alreadyConfirmed || claimed.inFlight then pure ()
  else
    catching (do
      await (.operatorRollback s.operatorId transactionId refId)
      confirm ref)
      fun e => do
        recordEmitFailure ref
        if propagate then raise e else pure ()

def safeRollback (s : OperatorSession) (transactionId : Key) (refId : ℕ) (reason : Intent) :
    Program game Unit :=
  rollbackOnce s transactionId refId reason false none

/-- The retry loop of `move("bet", …)` with this many attempts left. -/
def moveBet (s : OperatorSession) (req : OperatorRequest) : ℕ → Program game WalletTxResult
  | 0 => raise .unavailable
  | left + 1 => (await (.operatorBet req)).catching fun e =>
      if e = .insufficientFunds then raise .insufficientBalance
      else if e = .timeout then do
        safeRollback s req.transactionId req.betId .ambiguousDebit
        raise .walletUnavailable
      else if left = 0 then do
        safeRollback s req.transactionId req.betId .transientDebit
        raise .walletError
      else moveBet s req left

/-- The retry loop of `move("win", …)`: a win is never rolled back. -/
def moveWin (req : OperatorRequest) : ℕ → Program game WalletTxResult
  | 0 => raise .unavailable
  | left + 1 => (await (.operatorWin req)).catching fun _ =>
      if left = 0 then raise .payoutPending else moveWin req left

def debit (walletId : ℕ) (amount : ℤ) (_type : LedgerType) (key : Key) (refId : ℕ) :
    Program game WalletTxResult := do
  let s ← await (.resolveSession walletId)
  moveBet s ⟨s.operatorId, walletId, amount, key, refId⟩ maxRetries

def credit (walletId : ℕ) (amount : ℤ) (_type : LedgerType) (key : Key) (refId : ℕ) :
    Program game WalletTxResult := do
  let s ← await (.resolveSession walletId)
  moveWin ⟨s.operatorId, walletId, amount, key, refId⟩ maxRetries

def rollback (walletId : ℕ) (key : Key) (refId : ℕ) : Program game Unit := do
  let s ← await (.resolveSession walletId)
  rollbackOnce s key refId .ambiguousDebit false none

def reverse (walletId : ℕ) (p : ReverseParams) : Program game Unit := do
  let s ← await (.resolveSession walletId)
  let reason := p.intent.getD
    (match p.originalDirection with
      | .credit => .voidReclaim
      | .debit => .voidRefund)
  rollbackOnce s p.originalKey p.refId reason true (some p.amount)

end SeamlessOperatorWallet

def seamlessOperatorWallet : WalletProvider :=
  ⟨SeamlessOperatorWallet.debit, SeamlessOperatorWallet.credit, SeamlessOperatorWallet.rollback,
    SeamlessOperatorWallet.reverse⟩

/-- A demo wallet plays on the ledger, every other one at the operator. -/
def walletRouter (ledger operator : WalletProvider) : WalletProvider where
  debit w amount type key refId := do
    if ← await (.isDemoWallet w) then ledger.debit w amount type key refId
    else operator.debit w amount type key refId
  credit w amount type key refId := do
    if ← await (.isDemoWallet w) then ledger.credit w amount type key refId
    else operator.credit w amount type key refId
  rollback w key refId := do
    if ← await (.isDemoWallet w) then ledger.rollback w key refId
    else operator.rollback w key refId
  reverse w p := do
    if ← await (.isDemoWallet w) then ledger.reverse w p else operator.reverse w p

def Params.wallet (P : Params) : WalletProvider :=
  if P.operatorMode then walletRouter ledgerService seamlessOperatorWallet else ledgerService

end VaultRun.Game
