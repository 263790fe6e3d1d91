import VaultRun.Game.Engine

/-!
The whole game service: any number of calls from any number of nodes over one database, with the
timers of the engines and the clock.
-/

namespace VaultRun.Game

open VaultRun.Concurrency Program BetsService GameEngineService

inductive Call
  | placeBet (a : PlaceBet)
  | cancelBet (node userId : ℕ) (panel : Panel)
  | cashOut (node userId : ℕ) (panel : Panel) (atMultiplier : Option ℕ)
  | evaluateAutoCashouts (node multiplier : ℕ)
  | onTick (node : ℕ)
  | settleRound (roundId : ℕ)
  | closeAndRefundRound (roundId : ℕ)
  | recoverStrandedActiveBets (olderThanMs : ℕ)
  | recoverReservingBets (olderThanMs : ℕ)
  | reconcilePendingPayouts (limit : ℕ)
  | voidBet (operatorId betId : ℕ)
  | reconcileVoidingBets (limit : ℕ)
  | drainPending (limit : ℕ)
  | start (node : ℕ)
  | recoverInterruptedRounds

inductive Outcome
  | bet (r : BetResult)
  | cashout (r : CashoutResult)
  | cashouts (rs : List CashoutResult)
  | settled (roundId : ℕ) (busted : List (ℕ × Panel))
  | voided (r : VoidResult)
  | count (n : ℕ)
  | done
  deriving Repr

variable (P : Params)

/-- The driver of the automatic cash-outs, run by the leader every 120 ms. -/
def onTick (node : ℕ) : Program game (List CashoutResult) := do
  match ← await (.publicState node) with
  | none => pure []
  | some s =>
      if s.phase ≠ .running then pure []
      else evaluateAutoCashouts P node s.multiplier

def Call.prog : Call → Program game Outcome
  | placeBet a => Outcome.bet <$> BetsService.placeBet P a
  | cancelBet n u p => Outcome.bet <$> BetsService.cancelBet P n u p
  | cashOut n u p m => Outcome.cashout <$> BetsService.cashOut P n u p m
  | evaluateAutoCashouts n m => Outcome.cashouts <$> BetsService.evaluateAutoCashouts P n m
  | onTick n => Outcome.cashouts <$> Game.onTick P n
  | settleRound r => Outcome.settled r <$> BetsService.settleRound r
  | closeAndRefundRound r => do
      GameEngineService.closeAndRefundRound P r
      pure .done
  | recoverStrandedActiveBets t => Outcome.count <$> GameEngineService.recoverStrandedActiveBets P t
  | recoverReservingBets t => Outcome.count <$> GameEngineService.recoverReservingBets P t
  | reconcilePendingPayouts l => Outcome.count <$> BetsService.reconcilePendingPayouts P l
  | voidBet o b => Outcome.voided <$> BetsService.voidBet P o b
  | reconcileVoidingBets l => Outcome.count <$> BetsService.reconcileVoidingBets P l
  | drainPending l => Outcome.count <$> WalletRollbackService.drainPending P.operatorMode l
  | start n => do
      GameEngineService.start P n
      pure .done
  | recoverInterruptedRounds => do
      GameEngineService.recoverInterruptedRounds P
      pure .done

def transition (node : ℕ) (phase : Phase) : Program game Outcome := do
  safe node phase
  pure .done

/-- The clock ticks, a call arrives, a timer or a deadline runs out, `leader-lost` stops an engine,
the gateway picks up a settlement, or a process boots. -/
inductive Event
  | tick (ms : ℕ)
  | call (c : Call)
  | timer (node : ℕ)
  | deadline (node i : ℕ)
  | onSettle (node roundId : ℕ)
  | leaderLost (node : ℕ)
  | boot (node : ℕ)

instance : Inhabited Event := ⟨.tick 0⟩

/-- The timer of a node runs out: its transition starts as call `i`, unless the engine is stopped. -/
def State.fire (σ : State) (i node : ℕ) : Option (State × Option (Program game Outcome)) :=
  let m := σ.nodes node
  match m.timer with
  | none => none
  | some (due, phase) =>
      if σ.now < due then none
      else if m.running then
        some (σ.updateNode node fun m => { m with
            timer := none, racing := (i, σ.now + P.phaseDeadlineMs) :: m.racing },
          some (transition node phase))
      else some (σ.updateNode node fun m => { m with timer := none }, none)

def environment (e : Event) (i : ℕ) (σ : State) :
    Option (State × Option (Program game Outcome)) :=
  match e with
  | .tick ms => some ({ σ with now := σ.now + ms }, none)
  | .call c => some (σ, some (c.prog P))
  | .timer node => σ.fire P i node
  | .deadline node j =>
      if (σ.nodes node).racing.any fun r => r.1 = j ∧ r.2 ≤ σ.now then
        some (σ.raceLost node j, none)
      else none
  | .onSettle node roundId =>
      if (node, roundId) ∈ σ.settles then
        some ({ σ with settles := σ.settles.erase (node, roundId) },
          some ((Call.settleRound roundId).prog P))
      else none
  | .leaderLost node => some (σ.stop node, none)
  | .boot node => some (σ.updateNode node fun _ => ⟨none, none, false, []⟩, none)

/-- The death of a call gives its locks back. -/
def State.abort (i : ℕ) (σ : State) : State :=
  { σ with roundLocks := fun r => if σ.roundLocks r = some i then none else σ.roundLocks r }

def system : Machine game Outcome State Event Oracle where
  exec := exec P
  env := environment P
  abort := State.abort

abbrev GameConfig := Config game Outcome State Event

abbrev GameWorld := World game State Event

abbrev GameEntry := Entry game State Event

abbrev GameRule := Rule game State Event Oracle

end VaultRun.Game
