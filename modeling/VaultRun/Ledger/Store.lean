import Mathlib
import VaultRun.Concurrency.Discipline

/-!
The wallets and the journal of the internal ledger, and its statements: transactions that nobody else sees
before they commit, row locks, and a unique key.
-/

namespace VaultRun.Ledger

open VaultRun.Concurrency

inductive LedgerType
  | deposit
  | withdrawal
  | betDebit
  | payoutCredit
  | refund
  | adjustment
  deriving DecidableEq, Repr

structure LedgerRef where
  refType : Option String := none
  refId : Option String := none
  deriving DecidableEq, Repr

structure Row where
  walletId : ℕ
  type : LedgerType
  amount : ℤ
  balanceAfter : ℤ
  refType : Option String
  refId : Option String
  idempotencyKey : String
  deriving DecidableEq, Repr

structure Tx where
  wallets : ℕ → Option ℤ := fun _ => none
  rows : List Row := []

/-- The committed tables, the journal in the order of the commits and the newest first; then for each wallet the
call that has locked its row, for each key the call that has written it and not yet committed, and for each call
its open transaction. -/
structure State where
  wallets : ℕ → Option ℤ
  journal : List Row
  locks : ℕ → Option ℕ
  claims : String → Option ℕ
  txs : ℕ → Option Tx

inductive Err
  | unavailable
  | txClosed
  | p2002
  | p2003
  | notFound
  | insufficientBalance
  | amountMustBePositive
  | amountMustNotBeNegative
  deriving DecidableEq, Repr

inductive Stmt
  | findUnique (idempotencyKey : String)
  | begin
  | lockWallet (id : ℕ)
  | findWallet (id : ℕ)
  | updateWallet (id : ℕ) (balance : ℤ)
  | createRow (row : Row)
  | commit
  | rollback

@[reducible] def Stmt.Result : Stmt → Type
  | findUnique _ => Option Row
  | findWallet _ => ℤ
  | createRow _ => Row
  | _ => Unit

abbrev ledger : Interface := ⟨Stmt, Stmt.Result, Err⟩

abbrev await (s : Stmt) : Program ledger s.Result := @Program.await ledger s

namespace State

variable (σ : State) (i : ℕ)

def findUnique (written : List Row) (key : String) : Option Row :=
  (written ++ σ.journal).find? (·.idempotencyKey = key)

def setTx (tx : Tx) : State := { σ with txs := fun j => if j = i then some tx else σ.txs j }

def lock (id : ℕ) : State := { σ with locks := fun w => if w = id then some i else σ.locks w }

def claim (key : String) : State := { σ with claims := fun k => if k = key then some i else σ.claims k }

/-- The end of the transaction of call `i`: what it has locked goes with it. -/
def close : State :=
  { σ with
    locks := fun w => if σ.locks w = some i then none else σ.locks w
    claims := fun k => if σ.claims k = some i then none else σ.claims k
    txs := fun j => if j = i then none else σ.txs j }

def apply (tx : Tx) : State :=
  { σ with
    wallets := fun w => (tx.wallets w).or (σ.wallets w)
    journal := tx.rows ++ σ.journal }

end State

section Perform

variable (i : ℕ) (σ : State)

/-- A statement of call `i` in its transaction; `none` while it waits for the transaction of another call. -/
def performIn (tx : Tx) (s : Stmt) : Option (ledger.Reply s × State) :=
  match s with
  | .findUnique key => some (.ok (σ.findUnique tx.rows key), σ)
  | .begin => some (.error .unavailable, σ)
  | .lockWallet id =>
      if σ.wallets id = none then some (.ok (), σ)
      else if (σ.locks id).any (· ≠ i) then none
      else some (.ok (), σ.lock i id)
  | .findWallet id =>
      match (tx.wallets id).or (σ.wallets id) with
      | some balance => some (.ok balance, σ)
      | none => some (.error .notFound, σ)
  | .updateWallet id balance =>
      if σ.wallets id = none then some (.error .notFound, σ)
      else if (σ.locks id).any (· ≠ i) then none
      else some (.ok (), (σ.lock i id).setTx i
        { tx with wallets := fun w => if w = id then some balance else tx.wallets w })
  | .createRow row =>
      if σ.wallets row.walletId = none then some (.error .p2003, σ)
      else if (σ.findUnique tx.rows row.idempotencyKey).isSome then some (.error .p2002, σ)
      else if (σ.claims row.idempotencyKey).any (· ≠ i) then none
      else some (.ok row, (σ.claim i row.idempotencyKey).setTx i { tx with rows := row :: tx.rows })
  | .commit => some (.ok (), (σ.apply tx).close i)
  | .rollback => some (.ok (), σ.close i)

def perform (s : Stmt) : Option (ledger.Reply s × State) :=
  match σ.txs i with
  | some tx => performIn i σ tx s
  | none =>
      match s with
      | .findUnique key => some (.ok (σ.findUnique [] key), σ)
      | .begin => some (.ok (), σ.setTx i {})
      | _ => some (.error .txClosed, σ)

end Perform

/-- How a statement fares: `lost` fails, and `dropped` loses the transaction as well, as a failed rollback does. -/
inductive Oracle
  | ok
  | lost
  | dropped
  deriving DecidableEq

def exec (o : Oracle) (i : ℕ) (s : Stmt) (σ : State) : Option (ledger.Reply s × State) :=
  match o with
  | .ok => perform i σ s
  | .lost => if s matches .rollback then none else some (.error .unavailable, σ)
  | .dropped => some (.error .unavailable, σ.close i)

end VaultRun.Ledger
