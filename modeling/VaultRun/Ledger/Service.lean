import VaultRun.Ledger.Store

/-!
The calls of the internal ledger, and what a call knows of its own transaction at each statement.
-/

namespace VaultRun.Ledger

open VaultRun.Concurrency Program

variable {α : Type}

/-- `prisma.$transaction`: whatever the body or the commit throws, the transaction is rolled back. -/
def transaction (body : Program ledger α) : Program ledger α := do
  await .begin
  catching
    (do
      let a ← body
      await .commit
      pure a)
    fun e => do
      let _ ← (await .rollback).attempt
      raise e

namespace LedgerService

/-- What `record` and `resetTo` share: the row of an applied key is returned, before the lock and under it, and
where another call has inserted it in the meantime. -/
def once (walletId : ℕ) (idempotencyKey : String) (found : Row → α) (post : Program ledger α) :
    Program ledger α := do
  match ← await (.findUnique idempotencyKey) with
  | some existing => pure (found existing)
  | none =>
      catching
        (transaction do
          await (.lockWallet walletId)
          match ← await (.findUnique idempotencyKey) with
          | some dup => pure (found dup)
          | none => post)
        fun e =>
          if e = .p2002 then do
            match ← await (.findUnique idempotencyKey) with
            | some row => pure (found row)
            | none => raise e
          else raise e

def record (walletId : ℕ) (signedAmount : ℤ) (type : LedgerType) (idempotencyKey : String)
    (ref : Option LedgerRef) : Program ledger Row :=
  once walletId idempotencyKey id do
    let balance ← await (.findWallet walletId)
    let balanceAfter := balance + signedAmount
    if balanceAfter < 0 then raise .insufficientBalance
    else do
      await (.updateWallet walletId balanceAfter)
      await (.createRow ⟨walletId, type, signedAmount, balanceAfter, ref.bind (·.refType), ref.bind (·.refId),
        idempotencyKey⟩)

def debit (walletId : ℕ) (amount : ℤ) (type : LedgerType) (idempotencyKey : String) (ref : Option LedgerRef) :
    Program ledger Row :=
  if amount ≤ 0 then raise .amountMustBePositive
  else record walletId (-amount) type idempotencyKey ref

def credit (walletId : ℕ) (amount : ℤ) (type : LedgerType) (idempotencyKey : String) (ref : Option LedgerRef) :
    Program ledger Row :=
  if amount ≤ 0 then raise .amountMustBePositive
  else record walletId amount type idempotencyKey ref

inductive Direction
  | debit
  | credit

structure ReverseParams where
  originalDirection : Direction
  amount : ℤ
  type : LedgerType
  reverseKey : String
  ref : Option LedgerRef

def reverse (walletId : ℕ) (p : ReverseParams) : Program ledger Unit := do
  match p.originalDirection with
  | .debit => let _ ← credit walletId p.amount p.type p.reverseKey p.ref
  | .credit => let _ ← debit walletId p.amount p.type p.reverseKey p.ref

/-- `none` where the balance is `target` already. -/
def resetTo (walletId : ℕ) (target : ℤ) (idempotencyKey : String) (ref : Option LedgerRef) :
    Program ledger (Option Row) :=
  if target < 0 then raise .amountMustNotBeNegative
  else once walletId idempotencyKey some do
    let balance ← await (.findWallet walletId)
    let delta := target - balance
    if delta = 0 then pure none
    else do
      await (.updateWallet walletId target)
      let row ← await (.createRow ⟨walletId, .adjustment, delta, target, ref.bind (·.refType), ref.bind (·.refId),
        idempotencyKey⟩)
      pure (some row)

end LedgerService

inductive Call
  | debit (walletId : ℕ) (amount : ℤ) (type : LedgerType) (idempotencyKey : String) (ref : Option LedgerRef)
  | credit (walletId : ℕ) (amount : ℤ) (type : LedgerType) (idempotencyKey : String) (ref : Option LedgerRef)
  | reverse (walletId : ℕ) (p : LedgerService.ReverseParams)
  | resetTo (walletId : ℕ) (target : ℤ) (idempotencyKey : String) (ref : Option LedgerRef)

inductive Outcome
  | row (r : Row)
  | reset (r : Option Row)
  | done

def Call.prog : Call → Program ledger Outcome
  | debit w a t k ref => Outcome.row <$> LedgerService.debit w a t k ref
  | credit w a t k ref => Outcome.row <$> LedgerService.credit w a t k ref
  | reverse w p => (fun _ => Outcome.done) <$> LedgerService.reverse w p
  | resetTo w a k ref => Outcome.reset <$> LedgerService.resetTo w a k ref

/-- Calls arrive at any time; one that dies loses its transaction. -/
def system : Machine ledger Outcome State Call Oracle where
  exec := exec
  env c _ σ := some (σ, some c.prog)
  abort i σ := σ.close i

abbrev LedgerConfig := Config ledger Outcome State Call

abbrev LedgerWorld := World ledger State Call

abbrev LedgerEntry := Entry ledger State Call

end VaultRun.Ledger
