import VaultRun.Game.Bets

/-!
The engine of one node: the transitions of the round loop, the recovery passes, and the resumption of
a round that another process has left open.
-/

namespace VaultRun.Game

open VaultRun.Concurrency Program

namespace Phase

/-- `PHASE_MS`; a running round ends when it crashes. -/
def ms : Phase → ℕ
  | waiting => 3000
  | betting => 5000
  | running => 60000
  | crashed => 2500
  | settling => 500
  | completed => 600

end Phase

namespace GameEngineService

variable (P : Params)

section Recovery

/-- One turn of the loop of `closeAndRefundRound`. -/
def refundOne (_ : Unit) (b : ℕ × Bet) : Program game Unit :=
  catching (do
    P.wallet.reverse b.2.walletId ⟨.debit b.2.slot, .restartRefund b.1, b.2.amount, .debit, .refund,
      b.1, some .restartRefund⟩
    await (.updateBet b.1 { status := some .cancelled, settles := true }))
    fun _ => pure ()

def closeAndRefundRound (roundId : ℕ) : Program game Unit := do
  let activeBets ← await (.findBets { roundId := some roundId, status := some [.active] } none)
  loop (refundOne P) () activeBets
  await (.updateRound roundId { status := some .completed, settles := true })

/-- The reversal of a claimed slot: the ledger tells whether its debit went through. -/
def reverseSlot (b : ℕ × Bet) : Program game Unit := do
  P.wallet.rollback b.2.walletId (.debit b.2.slot) b.1
  match ← await (.findLedger (.debit b.2.slot)) with
  | some _ =>
      let _ ← P.wallet.credit b.2.walletId b.2.amount .refund (.restartRefund b.1) b.1
      await (.updateBet b.1 { status := some .cancelled, settles := true })
  | none =>
      let _ ← (await (.deleteBet b.1)).attempt

/-- The claim of a fresh slot, which a slot that an earlier pass has claimed does not need. -/
def claimSlot (b : ℕ × Bet) : Program game ℕ :=
  if b.2.status = .reserving then
    await (.updateBets { id := some b.1, status := some [.reserving] } { status := some .cancelling })
  else pure 1

/-- One turn of the loop of `recoverReservingBets`. -/
def recoverOne (recovered : ℕ) (b : ℕ × Bet) : Program game ℕ := do
  let claimed ← claimSlot b
  if claimed = 0 then pure recovered
  else
    match ← (reverseSlot P b).attempt with
    | .ok _ => pure (recovered + 1)
    | .error _ => pure recovered

/-- An age of 0 selects every slot. -/
def cutoffOf (olderThanMs : ℕ) : Program game (Option ℕ) :=
  if 0 < olderThanMs then do
    let now ← await .dateNow
    pure (some (now - olderThanMs))
  else pure none

def recoverReservingBets (olderThanMs : ℕ) : Program game ℕ := do
  let cutoff ← cutoffOf olderThanMs
  let slots ← await (.findBets
    { status := some [.reserving, .cancelling], createdBefore := cutoff } none)
  loop (recoverOne P) 0 slots

/-- One turn of the loop of `recoverStrandedActiveBets`. -/
def healOne (healed : ℕ) (b : ℕ × Bet) : Program game ℕ := do
  let flip ← (do
    P.wallet.reverse b.2.walletId ⟨.debit b.2.slot, .restartRefund b.1, b.2.amount, .debit, .refund,
      b.1, some .restartRefund⟩
    await (.updateBets { id := some b.1, status := some [.active] }
      { status := some .cancelled, settles := true })).attempt
  pure (if flip.toOption.any (0 < ·) then healed + 1 else healed)

def recoverStrandedActiveBets (olderThanMs : ℕ) : Program game ℕ := do
  let now ← await .dateNow
  let stranded ← await (.findBets
    { status := some [.active], refundedBefore := some (now - olderThanMs) } (some 100))
  loop (healOne P) 0 stranded

def closeStaleExtra (node : ℕ) (r : ℕ × Round) : Program game Unit := do
  if r.2.status ∈ [Phase.running, .crashed, .settling] then
    await (.revealSeed r.2.seedId)
    if r.2.crashedAt = none then await (.stampCrashed r.1)
    await (.emitSettle node (some r.1))
    await (.updateRound r.1 { status := some .completed, settles := true })
  else closeAndRefundRound P r.1

end Recovery

section Loop

variable (n : ℕ)

def stillLeader : Program game Bool := do
  if ← await (.assertStillLeader n) then pure true
  else
    await (.stop n)
    pure false

/-- `whenLeader n k` is the fence at the top of every transition. -/
def whenLeader (k : Program game Unit) : Program game Unit := do
  if ← stillLeader n then k else pure ()

def enterWaiting : Program game Unit := whenLeader n do
  match ← await .allocateSeed with
  | none => await (.schedule n 1500 .waiting)
  | some (seedId, crashPoint) =>
      let now ← await .dateNow
      match ← (await (.createRound seedId crashPoint (now + Phase.waiting.ms))).attempt with
      | .error e => if e = .p2002 then await (.stop n) else raise e
      | .ok roundId =>
          await (.setState n ⟨roundId, seedId, .waiting, now + Phase.waiting.ms, none, crashPoint⟩)
          await (.mirror n)
          await (.schedule n Phase.waiting.ms .betting)

/-- `if (!this.state) return; if (!(await this.stillLeader(…))) return;`. -/
def whenStateAndLeader (k : Program game Unit) : Program game Unit := do
  if (← await (.readState n)).isNone then pure () else whenLeader n k

def enterBetting : Program game Unit := whenStateAndLeader n do
  let s ← await (.enterPhase n .betting Phase.betting.ms)
  await (.updateRound s.roundId { status := some .betting, phaseEndsAt := some s.phaseEndsAt })
  await (.mirror n)
  await (.schedule n Phase.betting.ms .running)

def enterRunning : Program game Unit := whenStateAndLeader n do
  let s ← await (.enterPhase n .running Phase.running.ms)
  await (.updateRound s.roundId
    { status := some .running, phaseEndsAt := some s.phaseEndsAt, startedAt := s.startedAt })
  await (.mirror n)
  await (.scheduleCrash n)

/-- The round is captured when the phase is entered, after the fence. -/
def enterCrashed : Program game Unit := whenStateAndLeader n do
  let s ← await (.enterPhase n .crashed Phase.crashed.ms)
  await (.updateRound s.roundId
    { status := some .crashed, phaseEndsAt := some s.phaseEndsAt, crashes := true })
  await (.revealSeed s.seedId)
  await (.mirror n)
  await (.schedule n Phase.crashed.ms .settling)

def enterSettling : Program game Unit := whenStateAndLeader n do
  let s ← await (.enterPhase n .settling Phase.settling.ms)
  await (.updateRound s.roundId { status := some .settling, phaseEndsAt := some s.phaseEndsAt })
  await (.mirror n)
  await (.emitSettle n none)
  await (.schedule n Phase.settling.ms .completed)

def enterCompleted : Program game Unit := whenStateAndLeader n do
  let s ← await (.enterPhase n .completed Phase.completed.ms)
  await (.updateRound s.roundId
    { status := some .completed, phaseEndsAt := some s.phaseEndsAt, settles := true })
  await (.mirror n)
  await (.schedule n Phase.completed.ms .waiting)

def enter : Phase → Program game Unit
  | .waiting => enterWaiting n
  | .betting => enterBetting n
  | .running => enterRunning n
  | .crashed => enterCrashed n
  | .settling => enterSettling n
  | .completed => enterCompleted n

/-- `safe(fn, phase)`: the race against the deadline is settled by whichever comes first. -/
def safe (phase : Phase) : Program game Unit :=
  catching (do
    enter n phase
    await (.raceWon n))
    fun _ => await (.raceLost n)

end Loop

section Resume

def resumeMaxStalenessMs : ℕ := 30000

def unresumable (now : ℕ) (r : Round) : Bool :=
  r.crashPoint < 100 || r.phaseEndsAt.isNone ||
    (r.status ∈ [Phase.waiting, .betting] && r.phaseEndsAt.any (· + resumeMaxStalenessMs < now)) ||
    (r.status ∈ [Phase.running, .crashed, .settling] && r.startedAt.isNone)

/-- The crash elapsed while no leader was there: honour the due targets, then crash. -/
def honorThenCrash (n crashPoint : ℕ) : Program game Unit := whenLeader n do
  let _ ← BetsService.evaluateAutoCashouts P n crashPoint
  enterCrashed n

def resumeRound (n : ℕ) (r : ℕ × Round) : Program game Unit := do
  let now ← await .dateNow
  let phaseEndsAt := r.2.phaseEndsAt.getD 0
  await (.setState n ⟨r.1, r.2.seedId, r.2.status, phaseEndsAt, r.2.startedAt, r.2.crashPoint⟩)
  await (.mirror n)
  match r.2.status with
  | .waiting => await (.schedule n (phaseEndsAt - now) .betting)
  | .betting => await (.schedule n (phaseEndsAt - now) .running)
  | .running =>
      let crashTime := r.2.startedAt.getD 0 + P.crashDelay r.2.crashPoint
      if now < crashTime then await (.schedule n (crashTime - now) .crashed)
      else honorThenCrash P n r.2.crashPoint
  | .crashed =>
      let s ← await (.readState n)
      await (.revealSeed ((s.map (·.seedId)).getD r.2.seedId))
      await (.stampCrashed r.1)
      await (.mirror n)
      await (.schedule n (phaseEndsAt - now) .settling)
  | .settling =>
      await (.emitSettle n none)
      await (.schedule n (phaseEndsAt - now) .completed)
  | .completed => enterWaiting n

def resumeOrRecover (n : ℕ) : Program game Bool := do
  let _ ← recoverReservingBets P 0
  match ← await .findOpenRounds with
  | [] => pure false
  | candidate :: stale =>
      loop (fun _ r => closeStaleExtra P n r) () stale
      let now ← await .dateNow
      if unresumable now candidate.2 then
        closeAndRefundRound P candidate.1
        pure false
      else
        resumeRound P n candidate
        pure true

def start (n : ℕ) : Program game Unit := do
  if ← await (.beginStart n) then
    await .ensureChain
    let _ ← recoverStrandedActiveBets P 0
    if ← resumeOrRecover P n then pure () else enterWaiting n
  else pure ()

/-- The entry point that closes every open round. -/
def recoverInterruptedRounds : Program game Unit := do
  let _ ← recoverReservingBets P 0
  let _ ← recoverStrandedActiveBets P 0
  let stuck ← await .findOpenRounds
  loop (fun _ r => closeAndRefundRound P r.1) () stuck

end Resume

end GameEngineService

end VaultRun.Game
