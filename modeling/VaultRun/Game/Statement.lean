import VaultRun.Concurrency.RelyGuarantee
import VaultRun.Game.State

/-!
The statements a service can wait for, and what each of them does when it takes effect.
-/

namespace VaultRun.Game

open VaultRun.Concurrency VaultRun.Data

inductive Err
  | unavailable
  | p2002
  | notFound
  | walletOwnership
  | insufficientBalance
  | amountMustBePositive
  | payoutPending
  | walletUnavailable
  | walletError
  | insufficientFunds
  | timeout
  | reserveRejected (reason : Reason)
  | betNotFound
  | betNotSettled
  | betTransient
  | betStateChanged
  deriving DecidableEq, Repr

/-- The first group is local to a node, the second goes to the database, the third to the operator.
-/
inductive Stmt
  | dateNow
  | publicState (node : ℕ)
  | currentMultiplier (node : ℕ)
  | readState (node : ℕ)
  | setState (node : ℕ) (s : EngineState)
  | enterPhase (node : ℕ) (phase : Phase) (ms : ℕ)
  | beginStart (node : ℕ)
  | stop (node : ℕ)
  | schedule (node : ℕ) (ms : ℕ) (phase : Phase)
  | scheduleCrash (node : ℕ)
  | emitSettle (node : ℕ) (roundId : Option ℕ)
  | raceWon (node : ℕ)
  | raceLost (node : ℕ)
  | endTx (roundId : ℕ)
  | assertStillLeader (node : ℕ)
  | findSlot (slot : Slot)
  | findBet (id : ℕ)
  | findRound (id : ℕ)
  | findOpenRounds
  | findWallet (id : ℕ)
  | findUserWallet (userId : ℕ)
  | isDemoWallet (walletId : ℕ)
  | resolveSession (walletId : ℕ)
  | findBets (w : BetWhere) (take : Option ℕ)
  | lockRound (roundId : ℕ)
  | createBet (data : NewBet)
  | updateBet (id : ℕ) (data : BetData)
  | updateBets (w : BetWhere) (data : BetData)
  | deleteBet (id : ℕ)
  | updateProfile (userId : ℕ) (payout : ℤ) (mult : ℕ)
  | findLedger (key : Key)
  | recordLedger (walletId : ℕ) (signedAmount : ℤ) (type : LedgerType) (key : Key) (refId : ℕ)
  | findRollback (ref : RollbackRef)
  | findOwedRollbacks (now : ℕ) (take : ℕ)
  | createRollback (ref : RollbackRef) (row : WalletRollback)
  | updateRollback (ref : RollbackRef) (data : RollbackData)
  | updateRollbacks (w : RollbackWhere) (data : RollbackData)
  | ensureChain
  | allocateSeed
  | createRound (seedId crashPoint phaseEndsAt : ℕ)
  | updateRound (id : ℕ) (data : RoundData)
  | stampCrashed (id : ℕ)
  | revealSeed (seedId : ℕ)
  | mirror (node : ℕ)
  | operatorBet (req : OperatorRequest)
  | operatorWin (req : OperatorRequest)
  | operatorRollback (operatorId : ℕ) (transactionId : Key) (betId : ℕ)

@[reducible] def Stmt.Result : Stmt → Type
  | dateNow => ℕ
  | publicState _ => Option PublicRoundState
  | currentMultiplier _ => ℕ
  | readState _ => Option EngineState
  | enterPhase _ _ _ => EngineState
  | beginStart _ => Bool
  | assertStillLeader _ => Bool
  | findSlot _ => Option (ℕ × Bet)
  | findBet _ => Option Bet
  | findRound _ => Option Round
  | findOpenRounds => List (ℕ × Round)
  | findWallet _ => Wallet
  | findUserWallet _ => ℕ × Wallet
  | isDemoWallet _ => Bool
  | resolveSession _ => OperatorSession
  | findBets _ _ => List (ℕ × Bet)
  | createBet _ => ℕ
  | updateBets _ _ => ℕ
  | findLedger _ => Option LedgerTransaction
  | recordLedger _ _ _ _ _ => WalletTxResult
  | findRollback _ => Option WalletRollback
  | findOwedRollbacks _ _ => List (RollbackRef × WalletRollback)
  | updateRollbacks _ _ => ℕ
  | allocateSeed => Option (ℕ × ℕ)
  | createRound _ _ _ => ℕ
  | operatorBet _ => WalletTxResult
  | operatorWin _ => WalletTxResult
  | _ => Unit

abbrev game : Interface := ⟨Stmt, Stmt.Result, Err⟩

abbrev await (s : Stmt) : Program game s.Result := @Program.await game s

/-- A statement that runs inside the node, or that catches its own errors. -/
def Stmt.neverFails : Stmt → Bool
  | dateNow | publicState _ | currentMultiplier _ | readState _ | setState _ _ | enterPhase _ _ _
  | beginStart _ | stop _ | schedule _ _ _ | scheduleCrash _ | emitSettle _ _ | raceWon _
  | raceLost _ | endTx _ | mirror _ => true
  | _ => false

def Stmt.isOperatorCall : Stmt → Bool
  | operatorBet _ | operatorWin _ | operatorRollback _ _ _ => true
  | _ => false

abbrev Answer (s : Stmt) := Option (game.Reply s × State)

namespace State

variable (P : Params) (σ : State)

def recordLedger (walletId : ℕ) (signedAmount : ℤ) (type : LedgerType) (key : Key) (refId : ℕ) :
    Except Err WalletTxResult × State :=
  match σ.ledger.row key with
  | some row => (.ok ⟨key, row.balanceAfter⟩, σ)
  | none =>
      match σ.wallets.row walletId with
      | none => (.error .notFound, σ)
      | some w =>
          let balanceAfter := w.balance + signedAmount
          if balanceAfter < 0 then (.error .insufficientBalance, σ)
          else
            (.ok ⟨key, balanceAfter⟩,
              { σ with
                wallets := σ.wallets.insert walletId { w with balance := balanceAfter }
                ledger := σ.ledger.insert key ⟨walletId, type, signedAmount, balanceAfter, some refId⟩ })

/-- The operator answers a known transaction with its first result. -/
def operatorMove (sign : ℤ) (req : OperatorRequest) : Except Err WalletTxResult × State :=
  let charge := σ.setOperatorTx req.operatorId req.transactionId
    ⟨req.walletId, sign * req.amount, req.betId, true⟩ (sign * req.amount)
  match σ.operator req.operatorId req.transactionId with
  | some t =>
      if t.applied = true ∨ P.reapplies = false then
        (.ok ⟨req.transactionId, σ.operatorBalance req.walletId⟩, σ)
      else (.ok ⟨req.transactionId, charge.operatorBalance req.walletId⟩, charge)
  | none => (.ok ⟨req.transactionId, charge.operatorBalance req.walletId⟩, charge)

def operatorRollback (operatorId : ℕ) (transactionId : Key) : State :=
  match σ.operator operatorId transactionId with
  | some t =>
      if t.applied then
        σ.setOperatorTx operatorId transactionId { t with applied := false } (-t.amount)
      else σ
  | none => σ

/-- The end of a transaction releases the advisory lock it took. -/
def endTx (i roundId : ℕ) : State :=
  if σ.roundLocks roundId = some i then
    { σ with roundLocks := fun r => if r = roundId then none else σ.roundLocks r }
  else σ

/-- The insert and the commit that follows it. -/
def createBet (i : ℕ) (data : NewBet) : Except Err ℕ × State :=
  let row := data.row σ.now
  if h : σ.bets.findUnique row.slot = none then
    (.ok σ.bets.next, { σ.endTx i data.slot.roundId with bets := σ.bets.create row h })
  else (.error .p2002, σ)

def createRound (seedId crashPoint phaseEndsAt : ℕ) : Except Err ℕ × State :=
  let row : Round := ⟨seedId, crashPoint, .waiting, some phaseEndsAt, none, none, none, σ.now⟩
  if h : σ.rounds.findUnique row.seedId = none then
    (.ok σ.rounds.next, { σ with rounds := σ.rounds.create row h })
  else (.error .p2002, σ)

def schedule (node ms : ℕ) (phase : Phase) : State :=
  σ.updateNode node fun n => { n with timer := some (σ.now + ms, phase) }

/-- `catch` in `safe`: a race that is already over ignores the late failure. -/
def raceLost (node i : ℕ) : State :=
  if (σ.nodes node).racing.any (·.1 = i) then
    (σ.updateNode node fun n => { n with racing := n.racing.filter (·.1 ≠ i) }).schedule
      node 1500 .waiting
  else σ

def enterPhase (node : ℕ) (phase : Phase) (ms : ℕ) : Except Err EngineState × State :=
  match (σ.nodes node).state with
  | none => (.error .unavailable, σ)
  | some s =>
      let s' := { s with
        phase := phase
        phaseEndsAt := σ.now + ms
        startedAt := if phase = .running then some σ.now else s.startedAt }
      (.ok s', σ.updateNode node fun n => { n with state := some s' })

def beginStart (node : ℕ) : Bool × State :=
  if (σ.nodes node).running then (false, σ)
  else (true, σ.updateNode node fun n => { n with running := true })

def stop (node : ℕ) : State := σ.updateNode node fun n => { n with running := false, timer := none }

def emitSettle (node : ℕ) (roundId : Option ℕ) : State :=
  match roundId.or ((σ.nodes node).state.map (·.roundId)) with
  | some r => { σ with settles := (node, r) :: σ.settles }
  | none => σ

def openRounds : List (ℕ × Round) :=
  (σ.rounds.findMany fun _ r => r.status.isOpen).insertionSort fun a b =>
    b.2.createdAt ≤ a.2.createdAt

def updateBets (w : BetWhere) (data : BetData) : State :=
  { σ with bets := σ.bets.updateMany (w.holds σ.rounds) (data.apply σ.now) (data.apply_slot σ.now) }

def updateRound (id : ℕ) (data : RoundData) : State :=
  { σ with
    rounds := σ.rounds.updateMany (fun k _ => k = id) (data.apply σ.now) (data.apply_seedId σ.now) }

/-- `updateMany({ where: { id, crashedAt: null }, data: { crashedAt: new Date() } })`. -/
def stampCrashed (id : ℕ) : State :=
  let missing (k : ℕ) (r : Round) : Bool := k = id ∧ r.crashedAt = none
  { σ with rounds := σ.rounds.updateMany missing ({ · with crashedAt := some σ.now }) fun _ => rfl }

def updateRollbacks (w : RollbackWhere) (data : RollbackData) : State :=
  { σ with rollbacks := σ.rollbacks.updateMany w.holds data.apply }

end State

def perform (P : Params) (i : ℕ) (s : Stmt) (σ : State) : Answer s :=
  match s with
  | .dateNow => some (.ok σ.now, σ)
  | .publicState n => some (.ok ((σ.nodes n).publicState P σ.now), σ)
  | .currentMultiplier n => some (.ok ((σ.nodes n).multiplier P σ.now), σ)
  | .readState n => some (.ok (σ.nodes n).state, σ)
  | .setState n s => some (.ok (), σ.updateNode n fun m => { m with state := some s })
  | .enterPhase n phase ms => some (σ.enterPhase n phase ms)
  | .beginStart n => some (.ok (σ.beginStart n).1, (σ.beginStart n).2)
  | .stop n => some (.ok (), σ.stop n)
  | .schedule n ms phase => some (.ok (), σ.schedule n ms phase)
  | .scheduleCrash n =>
      some (.ok (), σ.schedule n (((σ.nodes n).state.map (P.crashDelay ·.crashPoint)).getD 0) .crashed)
  | .emitSettle n r => some (.ok (), σ.emitSettle n r)
  | .raceWon n =>
      some (.ok (), σ.updateNode n fun m => { m with racing := m.racing.filter (·.1 ≠ i) })
  | .raceLost n => some (.ok (), σ.raceLost n i)
  | .endTx r => some (.ok (), σ.endTx i r)
  | .assertStillLeader _ => some (.ok true, σ)
  | .findSlot slot => some (.ok (σ.bets.findUnique slot), σ)
  | .findBet id => some (.ok (σ.bets.row id), σ)
  | .findRound id => some (.ok (σ.rounds.row id), σ)
  | .findOpenRounds => some (.ok σ.openRounds, σ)
  | .findWallet id => some ((σ.wallets.row id).elim (.error .notFound) .ok, σ)
  | .findUserWallet u =>
      some ((σ.wallets.findMany fun _ w => w.userId = u).head?.elim (.error .notFound) .ok, σ)
  | .isDemoWallet w => some (.ok (P.isDemoWallet w), σ)
  | .resolveSession w => some (.ok (P.session w), σ)
  | .findBets w take =>
      let found := σ.bets.findMany (w.holds σ.rounds)
      some (.ok ((take.map found.take).getD found), σ)
  | .lockRound r =>
      if (σ.roundLocks r).all (· = i) then
        some (.ok (), { σ with roundLocks := fun r' => if r' = r then some i else σ.roundLocks r' })
      else none
  | .createBet data => some (σ.createBet i data)
  | .updateBet id data =>
      if (σ.bets.row id).isSome then some (.ok (), σ.updateBets { id := some id } data)
      else some (.error .notFound, σ)
  | .updateBets w data => some (.ok (σ.bets.count (w.holds σ.rounds)), σ.updateBets w data)
  | .deleteBet id =>
      if (σ.bets.row id).isSome then some (.ok (), { σ with bets := σ.bets.erase id })
      else some (.error .notFound, σ)
  | .updateProfile _ _ _ => some (.ok (), σ)
  | .findLedger key => some (.ok (σ.ledger.row key), σ)
  | .recordLedger w amount type key refId => some (σ.recordLedger w amount type key refId)
  | .findRollback ref => some (.ok (σ.rollbacks.row ref), σ)
  | .findOwedRollbacks t take => some (.ok ((σ.rollbacks.findMany fun _ r => r.owed t).take take), σ)
  | .createRollback ref row =>
      if (σ.rollbacks.row ref).isSome then some (.error .p2002, σ)
      else some (.ok (), { σ with rollbacks := σ.rollbacks.insert ref row })
  | .updateRollback ref data =>
      if (σ.rollbacks.row ref).isSome then some (.ok (), σ.updateRollbacks { ref := ref } data)
      else some (.error .notFound, σ)
  | .updateRollbacks w data =>
      some (.ok (σ.rollbacks.count w.holds), σ.updateRollbacks w data)
  | .ensureChain => some (.ok (), σ)
  | .allocateSeed => some (.ok none, σ)
  | .createRound seedId crashPoint ends => some (σ.createRound seedId crashPoint ends)
  | .updateRound id data =>
      if (σ.rounds.row id).isSome then some (.ok (), σ.updateRound id data)
      else some (.error .notFound, σ)
  | .stampCrashed id => some (.ok (), σ.stampCrashed id)
  | .revealSeed _ => some (.ok (), σ)
  | .mirror _ => some (.ok (), σ)
  | .operatorBet req => some (σ.operatorMove P (-1) req)
  | .operatorWin req => some (σ.operatorMove P 1 req)
  | .operatorRollback o k _ => some (.ok (), σ.operatorRollback o k)

/-- How a statement fares. `lost` fails before it takes effect and `unacked` after; `view` and
`multiplier` are what a follower has cached, `seed` what the fairness service hands out. -/
inductive Oracle
  | ok
  | lost
  | unacked
  | refused
  | timedOut (applied : Bool)
  | view (v : Option PublicRoundState)
  | multiplier (m : ℕ)
  | seed (s : Option (ℕ × ℕ))
  | demoted
  deriving DecidableEq

def exec (P : Params) (o : Oracle) (i : ℕ) (s : Stmt) (σ : State) : Answer s :=
  match o with
  | .ok => perform P i s σ
  | .lost => if s.neverFails then none else some (.error .unavailable, σ)
  | .unacked =>
      if s.neverFails then none
      else (perform P i s σ).map fun a => (.error .unavailable, a.2)
  | .refused =>
      match s with
      | .operatorBet _ => some (.error .insufficientFunds, σ)
      | _ => none
  | .timedOut applied =>
      if s.isOperatorCall then
        if applied then (perform P i s σ).map fun a => (.error .timeout, a.2)
        else some (.error .timeout, σ)
      else none
  | .view v =>
      match s with
      | .publicState _ => some (.ok v, σ)
      | _ => none
  | .multiplier m =>
      match s with
      | .currentMultiplier _ => some (.ok m, σ)
      | _ => none
  | .seed seed =>
      match s with
      | .allocateSeed => some (.ok seed, σ)
      | _ => none
  | .demoted =>
      match s with
      | .assertStillLeader _ => some (.ok false, σ)
      | _ => none

/-- A statement whose answer the node or another service makes up, without a trace in the state. -/
def Stmt.isView : Stmt → Bool
  | publicState _ | currentMultiplier _ | allocateSeed | assertStillLeader _ => true
  | _ => false

lemma isOperatorCall_neverFails {s : Stmt} (h : s.isOperatorCall) : s.neverFails = false := by
  cases s <;> simp_all [Stmt.isOperatorCall, Stmt.neverFails]

/-- A statement goes through, or throws with or without having taken effect, or only looks. -/
lemma exec_cases {P : Params} {o : Oracle} {i : ℕ} {s : Stmt} {σ σ' : State} {r : game.Reply s}
    (h : exec P o i s σ = some (r, σ')) :
    perform P i s σ = some (r, σ') ∨
    (s.neverFails = false ∧ ∃ e, r = .error e ∧ (σ' = σ ∨ ∃ r', perform P i s σ = some (r', σ'))) ∨
    (s.isView ∧ σ' = σ) := by
  cases o with
  | ok => exact .inl h
  | lost =>
      simp only [exec] at h
      split_ifs at h with hf
      obtain ⟨rfl, rfl⟩ := Prod.mk.inj (Option.some.inj h)
      exact .inr (.inl ⟨by simpa using hf, _, rfl, .inl rfl⟩)
  | unacked =>
      simp only [exec] at h
      split_ifs at h with hf
      obtain ⟨⟨r', σ₁⟩, hp, ha⟩ := Option.map_eq_some_iff.1 h
      obtain ⟨rfl, rfl⟩ := Prod.mk.inj ha
      exact .inr (.inl ⟨by simpa using hf, _, rfl, .inr ⟨r', hp⟩⟩)
  | timedOut applied =>
      simp only [exec] at h
      split_ifs at h with hs hb
      · obtain ⟨⟨r', σ₁⟩, hp, ha⟩ := Option.map_eq_some_iff.1 h
        obtain ⟨rfl, rfl⟩ := Prod.mk.inj ha
        exact .inr (.inl ⟨isOperatorCall_neverFails hs, _, rfl, .inr ⟨r', hp⟩⟩)
      · obtain ⟨rfl, rfl⟩ := Prod.mk.inj (Option.some.inj h)
        exact .inr (.inl ⟨isOperatorCall_neverFails hs, _, rfl, .inl rfl⟩)
  | refused =>
      cases s <;> simp only [exec, reduceCtorEq] at h
      obtain ⟨rfl, rfl⟩ := Prod.mk.inj (Option.some.inj h)
      exact .inr (.inl ⟨rfl, _, rfl, .inl rfl⟩)
  | view v | multiplier m | seed d | demoted =>
      cases s <;> simp only [exec, reduceCtorEq] at h
      obtain ⟨rfl, rfl⟩ := Prod.mk.inj (Option.some.inj h)
      exact .inr (.inr ⟨rfl, rfl⟩)

lemma perform_of_ok {P : Params} {o : Oracle} {i : ℕ} {s : Stmt} {σ σ' : State} {a : s.Result}
    (h : exec P o i s σ = some (.ok a, σ')) (hs : s.isView = false) :
    perform P i s σ = some (.ok a, σ') := by
  rcases exec_cases h with hp | ⟨-, e, he, -⟩ | ⟨hv, -⟩
  · exact hp
  · cases he
  · rw [hs] at hv
    cases hv

end VaultRun.Game
