import VaultRun.Game.System

/-!
A small deployment to run calls in: one player with one bet on one round, on node 0.
-/

namespace VaultRun.Game

open VaultRun.Concurrency VaultRun.Data

namespace Scenario

def params (operatorMode reapplies : Bool) : Params where
  risk := { minBet := 1, maxBet := 1000, maxWinPerBet := 100000, maxMultiplier := 100
            maxRoundExposure := 1000000 }
  curve ms := 100 + ms / 100
  crashDelay crash := (crash - 100) * 100
  phaseDeadlineMs := 10000
  operatorMode := operatorMode
  session _ := ⟨1⟩
  isDemoWallet _ := false
  reapplies := reapplies

def slot : Slot := ⟨0, 1, .A⟩

def round (phase : Phase) : Round where
  seedId := 0
  crashPoint := 200
  status := phase
  phaseEndsAt := some 5000
  startedAt := none
  crashedAt := none
  settledAt := none
  createdAt := 0

def engine (phase : Phase) : Node where
  state := some ⟨0, 0, phase, 5000, none, 200⟩
  timer := none
  running := true
  racing := []

/-- Round 0 is in this phase, and player 1 has money in wallet 0. -/
def idle (phase : Phase) : State where
  bets := ∅
  rounds := (∅ : Records Round Round.seedId).create (round phase) rfl
  wallets := (∅ : Table ℕ Wallet).insert 0 ⟨1, 0, 1000⟩
  ledger := ∅
  rollbacks := ∅
  operator _ _ := none
  operatorBalance _ := 1000
  roundLocks _ := none
  nodes _ := engine phase
  settles := []
  now := 0

def bet (status : BetStatus) : Bet where
  slot := slot
  walletId := 0
  amount := 100
  autoCashout := none
  status := status
  cashoutMult := none
  payout := 0
  demo := false
  operatorId := none
  currency := 0
  maxWinPerBet := none
  debitTxId := some (.debit slot)
  payoutTxId := none
  createdAt := 0
  settledAt := none

/-- Bet 0 is on round 0, with its stake taken from the ledger. -/
def staked (phase : Phase) (status : BetStatus) : State :=
  { idle phase with
    bets := (∅ : Records Bet Bet.slot).create (bet status) rfl
    wallets := (∅ : Table ℕ Wallet).insert 0 ⟨1, 0, 900⟩
    ledger := (∅ : Table Key LedgerTransaction).insert (.debit slot)
      ⟨0, .betDebit, -100, 900, some 0⟩ }

/-- The stake of bet 0 is owed back to the operator's wallet. -/
def owing : State := staked .completed .voiding

def refundRef : RollbackRef := ⟨1, 0, .voidRefund⟩

abbrev act (i : ℕ) : Machine.Label Event Oracle := .act i .ok

def acts (i k : ℕ) : List (Machine.Label Event Oracle) := List.replicate k (act i)

end Scenario

end VaultRun.Game
