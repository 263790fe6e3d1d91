import Mathlib.Data.List.Sort
import VaultRun.Game.Rows

/-!
The state shared by all calls: the database, the operator's side of the wallet, and the memory of the
engine on each node; with the queries and updates the services send to them.
-/

namespace VaultRun.Game

open VaultRun.Data

/-- `this.state` of an engine. -/
structure EngineState where
  roundId : ℕ
  seedId : ℕ
  phase : Phase
  phaseEndsAt : ℕ
  startedAt : Option ℕ
  crashPoint : ℕ
  deriving DecidableEq, Repr

/-- The memory of the engine on one node. A timer holds the time it is due and the phase its
transition enters; `racing` holds the calls that `safe` still waits for, with their deadlines. -/
structure Node where
  state : Option EngineState
  timer : Option (ℕ × Phase)
  running : Bool
  racing : List (ℕ × ℕ)

structure OperatorTx where
  walletId : ℕ
  amount : ℤ
  betId : ℕ
  applied : Bool
  deriving DecidableEq, Repr

structure State where
  bets : Records Bet Bet.slot
  rounds : Records Round Round.seedId
  wallets : Table ℕ Wallet
  ledger : Table Key LedgerTransaction
  rollbacks : Table RollbackRef WalletRollback
  operator : ℕ → Key → Option OperatorTx
  operatorBalance : ℕ → ℤ
  roundLocks : ℕ → Option ℕ
  nodes : ℕ → Node
  settles : List (ℕ × ℕ)
  now : ℕ

structure OperatorSession where
  operatorId : ℕ

/-- What a deployment fixes. `curve` is the multiplier after so many milliseconds and `crashDelay`
the time it takes to reach a crash point; `reapplies` says whether the operator charges again for a
transaction it has rolled back. -/
structure Params where
  risk : RiskLimits
  curve : ℕ → ℕ
  crashDelay : ℕ → ℕ
  phaseDeadlineMs : ℕ
  operatorMode : Bool
  session : ℕ → OperatorSession
  isDemoWallet : ℕ → Bool
  reapplies : Bool

/-- A `where` clause over bets; an absent field does not constrain. -/
structure BetWhere where
  id : Option ℕ := none
  roundId : Option ℕ := none
  status : Option (List BetStatus) := none
  autoCashoutLe : Option ℕ := none
  createdBefore : Option ℕ := none
  sessionOf : Option (ℕ × ℕ) := none
  refundedBefore : Option ℕ := none

/-- `round: { status: "completed", crashedAt: null, settledAt: { lt: cutoff } }`. -/
def Round.refundedBefore (r : Round) (cutoff : ℕ) : Bool :=
  r.status = .completed ∧ r.crashedAt = none ∧ r.settledAt.any (· < cutoff)

def BetWhere.holds (w : BetWhere) (rounds : Records Round Round.seedId) (id : ℕ) (b : Bet) : Bool :=
  w.id.all (· = id) && w.roundId.all (· = b.slot.roundId) && w.status.all (b.status ∈ ·) &&
    w.autoCashoutLe.all (fun m => b.autoCashout.any (· ≤ m)) &&
    w.createdBefore.all (b.createdAt < ·) &&
    w.sessionOf.all (fun s => b.walletId = s.1 && s.2 ≤ b.createdAt) &&
    w.refundedBefore.all fun t => (rounds.row b.slot.roundId).any (·.refundedBefore t)

/-- The `data` of an update; `settles` stamps `settledAt` with the current time. -/
structure BetData where
  status : Option BetStatus := none
  cashoutMult : Option ℕ := none
  payout : Option ℤ := none
  debitTxId : Option Key := none
  payoutTxId : Option Key := none
  settles : Bool := false

def BetData.apply (d : BetData) (now : ℕ) (b : Bet) : Bet :=
  { b with
    status := d.status.getD b.status
    cashoutMult := d.cashoutMult.or b.cashoutMult
    payout := d.payout.getD b.payout
    debitTxId := d.debitTxId.or b.debitTxId
    payoutTxId := d.payoutTxId.or b.payoutTxId
    settledAt := if d.settles then some now else b.settledAt }

@[simp] lemma BetData.apply_slot (d : BetData) (now : ℕ) (b : Bet) : (d.apply now b).slot = b.slot := rfl

structure RoundData where
  status : Option Phase := none
  phaseEndsAt : Option ℕ := none
  startedAt : Option ℕ := none
  crashes : Bool := false
  settles : Bool := false

def RoundData.apply (d : RoundData) (now : ℕ) (r : Round) : Round :=
  { r with
    status := d.status.getD r.status
    phaseEndsAt := d.phaseEndsAt.or r.phaseEndsAt
    startedAt := d.startedAt.or r.startedAt
    crashedAt := if d.crashes then some now else r.crashedAt
    settledAt := if d.settles then some now else r.settledAt }

@[simp] lemma RoundData.apply_seedId (d : RoundData) (now : ℕ) (r : Round) :
    (d.apply now r).seedId = r.seedId := rfl

/-- `pinned` is the `(status, lease)` an acquirer has read. -/
structure RollbackWhere where
  ref : RollbackRef
  pinned : Option (RollbackStatus × Option ℕ) := none

def RollbackWhere.holds (w : RollbackWhere) (ref : RollbackRef) (r : WalletRollback) : Bool :=
  w.ref = ref && w.pinned.all fun p => r.status = p.1 && (p.1 ≠ .draining || r.leaseUntil = p.2)

structure RollbackData where
  status : Option RollbackStatus := none
  leaseUntil : Option (Option ℕ) := none
  attempts : ℕ → ℕ := id

def RollbackData.apply (d : RollbackData) (r : WalletRollback) : WalletRollback :=
  { r with
    status := d.status.getD r.status
    leaseUntil := d.leaseUntil.getD r.leaseUntil
    attempts := d.attempts r.attempts }

/-- A rollback that is still owed at `now`: pending, or drained under a lease that has run out. -/
def WalletRollback.owed (r : WalletRollback) (now : ℕ) : Bool :=
  r.status = .pending || (r.status = .draining && r.leaseUntil.all (· < now))

structure NewBet where
  slot : Slot
  walletId : ℕ
  amount : ℤ
  autoCashout : Option ℕ
  demo : Bool
  operatorId : Option ℕ
  currency : ℕ
  maxWinPerBet : Option ℤ

def NewBet.row (d : NewBet) (now : ℕ) : Bet :=
  { slot := d.slot, walletId := d.walletId, amount := d.amount, autoCashout := d.autoCashout
    status := .reserving, cashoutMult := none, payout := 0, demo := d.demo
    operatorId := d.operatorId, currency := d.currency, maxWinPerBet := d.maxWinPerBet
    debitTxId := none, payoutTxId := none, createdAt := now, settledAt := none }

structure OperatorRequest where
  operatorId : ℕ
  walletId : ℕ
  amount : ℤ
  transactionId : Key
  betId : ℕ

structure PublicRoundState where
  roundId : ℕ
  phase : Phase
  multiplier : ℕ
  deriving DecidableEq, Repr

namespace State

variable (σ : State)

def updateNode (n : ℕ) (f : Node → Node) : State :=
  { σ with nodes := fun m => if m = n then f (σ.nodes m) else σ.nodes m }

def setOperatorTx (o : ℕ) (k : Key) (t : OperatorTx) (change : ℤ) : State :=
  { σ with
    operator := fun o' k' => if o' = o ∧ k' = k then some t else σ.operator o' k'
    operatorBalance := fun w =>
      if w = t.walletId then σ.operatorBalance w + change else σ.operatorBalance w }

end State

/-- `currentMultiplier` of the leader. -/
def EngineState.multiplier (P : Params) (now : ℕ) (s : EngineState) : ℕ :=
  match s.phase with
  | .crashed | .settling | .completed => s.crashPoint
  | .running => (s.startedAt.map fun t => max 100 (P.curve (now - t))).getD 100
  | _ => 100

def Node.multiplier (P : Params) (now : ℕ) (n : Node) : ℕ :=
  (n.state.map (·.multiplier P now)).getD 100

def Node.publicState (P : Params) (now : ℕ) (n : Node) : Option PublicRoundState :=
  n.state.map fun s => ⟨s.roundId, s.phase, s.multiplier P now⟩

end VaultRun.Game
