import VaultRun.Game.System

/-!
What a statement can do to each table, and what it leaves alone.
-/

namespace VaultRun.Game

open VaultRun.Concurrency VaultRun.Data

namespace Stmt

@[reducible] def writesBets : Stmt → Bool
  | createBet _ | updateBet _ _ | updateBets _ _ | deleteBet _ => true
  | _ => false

@[reducible] def writesRounds : Stmt → Bool
  | createRound _ _ _ | updateRound _ _ | stampCrashed _ => true
  | _ => false

@[reducible] def callsOperator : Stmt → Bool
  | operatorBet _ | operatorWin _ | operatorRollback _ _ _ => true
  | _ => false

@[reducible] def writesRollbacks : Stmt → Bool
  | createRollback _ _ | updateRollback _ _ | updateRollbacks _ _ => true
  | _ => false

@[reducible] def readsRollback : Stmt → Bool
  | findRollback _ => true
  | _ => false

@[reducible] def writesLedger : Stmt → Bool
  | recordLedger _ _ _ _ _ => true
  | _ => false

end Stmt

variable {P : Params} {o : Oracle} {i : ℕ} {s : Stmt} {σ σ' : State} {r : game.Reply s}

attribute [local grind] State.recordLedger State.operatorMove State.operatorRollback State.createRound
  State.createBet State.schedule State.raceLost State.enterPhase State.beginStart State.stop
  State.emitSettle State.updateNode State.setOperatorTx State.endTx State.updateBets
  State.updateRollbacks State.updateRound State.stampCrashed

structure Leaves (s : Stmt) (σ σ' : State) : Prop where
  bets : s.writesBets = false → σ'.bets = σ.bets
  rounds : s.writesRounds = false → σ'.rounds = σ.rounds
  ledger : s.writesLedger = false → σ'.ledger = σ.ledger
  operator : s.callsOperator = false → σ'.operator = σ.operator
  rollbacks : s.writesRollbacks = false → σ'.rollbacks = σ.rollbacks
  now : σ'.now = σ.now

lemma perform_leaves (h : perform P i s σ = some (r, σ')) : Leaves s σ σ' := by
  cases s <;> simp only [perform, Option.some.injEq, Prod.mk.injEq] at h <;>
    constructor <;> grind

section Exec

variable (h : exec P o i s σ = some (r, σ'))
include h

/-- A part of the state that `perform` leaves alone is left alone however the statement fares. -/
lemma exec_frame {α : Type} {f : State → α}
    (hf : ∀ r σ', perform P i s σ = some (r, σ') → f σ' = f σ) : f σ' = f σ := by
  rcases exec_cases h with hp | ⟨-, e, -, rfl | ⟨r', hp⟩⟩ | ⟨-, rfl⟩
  · exact hf _ _ hp
  · rfl
  · exact hf _ _ hp
  · rfl

lemma exec_bets (hs : s.writesBets = false) : σ'.bets = σ.bets :=
  exec_frame h fun _ _ hp => (perform_leaves hp).bets hs

lemma exec_rounds (hs : s.writesRounds = false) : σ'.rounds = σ.rounds :=
  exec_frame h fun _ _ hp => (perform_leaves hp).rounds hs

lemma exec_ledger (hs : s.writesLedger = false) : σ'.ledger = σ.ledger :=
  exec_frame h fun _ _ hp => (perform_leaves hp).ledger hs

lemma exec_now : σ'.now = σ.now := exec_frame h fun _ _ hp => (perform_leaves hp).now

lemma exec_rollbacks (hs : s.writesRollbacks = false) : σ'.rollbacks = σ.rollbacks :=
  exec_frame h fun _ _ hp => (perform_leaves hp).rollbacks hs

end Exec

inductive BetChange (σ σ' : State) (b : ℕ) : Stmt → Prop
  | kept {t : Stmt} (h : σ'.bets.row b = σ.bets.row b) : BetChange σ σ' b t
  | created {d : NewBet} (hb : b = σ.bets.next) (hfree : σ.bets.findUnique d.slot = none)
      (h : σ'.bets.row b = some (d.row σ.now)) : BetChange σ σ' b (.createBet d)
  | updated {w : BetWhere} {d : BetData} {old : Bet} (hold : σ.bets.row b = some old)
      (hw : w.holds σ.rounds b old) (h : σ'.bets.row b = some (d.apply σ.now old)) :
      BetChange σ σ' b (.updateBets w d)
  | updatedById {d : BetData} {old : Bet} (hold : σ.bets.row b = some old)
      (h : σ'.bets.row b = some (d.apply σ.now old)) : BetChange σ σ' b (.updateBet b d)
  | deleted (h : σ'.bets.row b = none) : BetChange σ σ' b (.deleteBet b)

@[simp] lemma updateBets_row {w : BetWhere} {d : BetData} {b : ℕ} :
    (σ.updateBets w d).bets.row b =
      (σ.bets.row b).map fun x => if w.holds σ.rounds b x then d.apply σ.now x else x := rfl

@[simp] lemma updateRound_row {d : RoundData} {n k : ℕ} :
    (σ.updateRound k d).rounds.row n =
      (σ.rounds.row n).map fun x => if n = k then d.apply σ.now x else x := by
  simp [State.updateRound]

@[simp] lemma stampCrashed_row {n k : ℕ} :
    (σ.stampCrashed k).rounds.row n = (σ.rounds.row n).map fun x =>
      if n = k ∧ x.crashedAt = none then { x with crashedAt := some σ.now } else x := by
  simp [State.stampCrashed]

@[simp] lemma holds_id {id : ℕ} {rounds : Records Round Round.seedId} {b : ℕ} {x : Bet} :
    ({ id := some id } : BetWhere).holds rounds b x = true ↔ b = id := by
  simp [BetWhere.holds, eq_comm]

lemma updateBets_change {w : BetWhere} {d : BetData} (b : ℕ)
    (h : (σ.updateBets w d).bets.row b ≠ σ.bets.row b) :
    ∃ old, σ.bets.row b = some old ∧ w.holds σ.rounds b old ∧
      (σ.updateBets w d).bets.row b = some (d.apply σ.now old) := by
  rw [updateBets_row] at h ⊢
  cases hb : σ.bets.row b with
  | none => simp [hb] at h
  | some old =>
      by_cases hw : w.holds σ.rounds b old
      · exact ⟨old, rfl, hw, by simp [hw]⟩
      · simp [hb, hw] at h

lemma perform_betChange (h : perform P i s σ = some (r, σ')) (b : ℕ) : BetChange σ σ' b s := by
  by_cases hk : σ'.bets.row b = σ.bets.row b
  · exact .kept hk
  · cases s with
    | createBet d =>
        simp only [perform, State.createBet, Option.some.injEq] at h
        split_ifs at h with hs
        · obtain ⟨rfl, rfl⟩ := Prod.mk.inj h
          obtain rfl : b = σ.bets.next := by
            by_contra hb
            simp [hb] at hk
          exact .created rfl hs (by simp)
        · obtain ⟨rfl, rfl⟩ := Prod.mk.inj h
          exact absurd rfl hk
    | updateBets w d =>
        obtain ⟨rfl, rfl⟩ := Prod.mk.inj (Option.some.inj h)
        obtain ⟨old, hold, hw, hrow⟩ := updateBets_change b hk
        exact .updated hold hw hrow
    | updateBet id d =>
        simp only [perform] at h
        split_ifs at h
        · obtain ⟨rfl, rfl⟩ := Prod.mk.inj (Option.some.inj h)
          obtain ⟨old, hold, hw, hrow⟩ := updateBets_change b hk
          obtain rfl : b = id := holds_id.1 hw
          exact .updatedById hold hrow
        · obtain ⟨rfl, rfl⟩ := Prod.mk.inj (Option.some.inj h)
          exact absurd rfl hk
    | deleteBet id =>
        simp only [perform] at h
        split_ifs at h
        · obtain ⟨rfl, rfl⟩ := Prod.mk.inj (Option.some.inj h)
          obtain rfl : b = id := by
            by_contra hb
            simp [hb] at hk
          exact .deleted (by simp)
        · obtain ⟨rfl, rfl⟩ := Prod.mk.inj (Option.some.inj h)
          exact absurd rfl hk
    | _ => exact absurd (by rw [(perform_leaves h).bets rfl]) hk

lemma exec_betChange (h : exec P o i s σ = some (r, σ')) (b : ℕ) : BetChange σ σ' b s := by
  rcases exec_cases h with hp | ⟨-, e, -, rfl | ⟨r', hp⟩⟩ | ⟨-, rfl⟩
  · exact perform_betChange hp b
  · exact .kept rfl
  · exact perform_betChange hp b
  · exact .kept rfl

inductive RoundChange (σ σ' : State) (n : ℕ) : Stmt → Prop
  | kept {t : Stmt} (h : σ'.rounds.row n = σ.rounds.row n) : RoundChange σ σ' n t
  | created {seed crash ends : ℕ} (hn : n = σ.rounds.next)
      (h : σ'.rounds.row n = some ⟨seed, crash, .waiting, some ends, none, none, none, σ.now⟩) :
      RoundChange σ σ' n (.createRound seed crash ends)
  | updated {d : RoundData} {old : Round} (hold : σ.rounds.row n = some old)
      (h : σ'.rounds.row n = some (d.apply σ.now old)) : RoundChange σ σ' n (.updateRound n d)
  | stamped {old : Round} (hold : σ.rounds.row n = some old)
      (h : σ'.rounds.row n = some { old with crashedAt := some σ.now }) :
      RoundChange σ σ' n (.stampCrashed n)

lemma perform_roundChange (h : perform P i s σ = some (r, σ')) (n : ℕ) : RoundChange σ σ' n s := by
  by_cases hk : σ'.rounds.row n = σ.rounds.row n
  · exact .kept hk
  · cases s with
    | createRound seed crash ends =>
        simp only [perform, State.createRound, Option.some.injEq] at h
        by_cases hfree : σ.rounds.findUnique seed = none
        · rw [dif_pos hfree] at h
          obtain ⟨rfl, rfl⟩ := Prod.mk.inj h
          obtain rfl : n = σ.rounds.next := by
            by_contra hn
            simp [hn] at hk
          exact .created rfl (by simp)
        · rw [dif_neg hfree] at h
          obtain ⟨rfl, rfl⟩ := Prod.mk.inj h
          exact absurd rfl hk
    | updateRound m d =>
        simp only [perform] at h
        by_cases hrow : (σ.rounds.row m).isSome
        · rw [if_pos hrow] at h
          obtain ⟨rfl, rfl⟩ := Prod.mk.inj (Option.some.inj h)
          obtain rfl : n = m := by
            by_contra hn
            cases hold : σ.rounds.row n <;> simp [hold, hn] at hk
          obtain ⟨old, hold⟩ := Option.isSome_iff_exists.1 hrow
          exact .updated hold (by simp [hold])
        · rw [if_neg hrow] at h
          obtain ⟨rfl, rfl⟩ := Prod.mk.inj (Option.some.inj h)
          exact absurd rfl hk
    | stampCrashed m =>
        obtain ⟨rfl, rfl⟩ := Prod.mk.inj (Option.some.inj h)
        cases hold : σ.rounds.row n with
        | none => simp [hold] at hk
        | some old =>
            obtain ⟨rfl, hnone⟩ : n = m ∧ old.crashedAt = none := by
              by_contra hn
              simp [hold, hn] at hk
            exact .stamped hold (by simp [hold, hnone])
    | _ => exact absurd (by rw [(perform_leaves h).rounds rfl]) hk

lemma exec_roundChange (h : exec P o i s σ = some (r, σ')) (n : ℕ) : RoundChange σ σ' n s := by
  rcases exec_cases h with hp | ⟨-, e, -, rfl | ⟨r', hp⟩⟩ | ⟨-, rfl⟩
  · exact perform_roundChange hp n
  · exact .kept rfl
  · exact perform_roundChange hp n
  · exact .kept rfl

lemma exec_swap {st : BetStatus} {d : BetData} {b n : ℕ}
    (h : exec P o i (.updateBets { id := some b, status := some [st] } d) σ = some (.ok n, σ'))
    (hn : n ≠ 0) : ∃ x, σ.bets.row b = some x ∧ x.status = st ∧
      σ'.bets.row b = some (d.apply σ.now x) := by
  obtain ⟨hcount, rfl⟩ : σ.bets.count (BetWhere.holds { id := some b, status := some [st] } σ.rounds) = n ∧
      σ.updateBets { id := some b, status := some [st] } d = σ' := by
    simpa [perform] using perform_of_ok h rfl
  subst hcount
  obtain ⟨k, x, hx, hw⟩ := Table.count_ne_zero.1 hn
  obtain ⟨rfl, hst⟩ : b = k ∧ x.status = st := by simpa [BetWhere.holds] using hw
  exact ⟨x, hx, hst, by simp [hx, hw]⟩

/-- A compare-and-swap that has moved the row says so, unless its answer is lost. -/
lemma exec_swap_ne {st : BetStatus} {d : BetData} {b : ℕ} {r : Except Err ℕ}
    (h : exec P o i (.updateBets { id := some b, status := some [st] } d) σ = some (r, σ'))
    (hne : σ'.bets.row b ≠ σ.bets.row b) : o = .unacked ∨ ∃ n, r = .ok n ∧ n ≠ 0 := by
  cases o with
  | ok =>
      obtain ⟨rfl, rfl⟩ := Prod.mk.inj (Option.some.inj h)
      obtain ⟨x, hx, hw, -⟩ := updateBets_change b hne
      exact .inr ⟨_, rfl, Table.count_ne_zero.2 ⟨b, x, hx, hw⟩⟩
  | unacked => exact .inl rfl
  | lost =>
      obtain ⟨-, rfl⟩ := Prod.mk.inj (Option.some.inj h)
      exact absurd rfl hne
  | _ => cases h

lemma recordLedger_row (w : ℕ) (a : ℤ) (t : LedgerType) (key : Key) (ref : ℕ) (k : Key) :
    (σ.recordLedger w a t key ref).2.ledger.row k = σ.ledger.row k ∨
      k = key ∧ σ.ledger.row k = none ∧
        ∃ balance, (σ.recordLedger w a t key ref).2.ledger.row k =
          some ⟨w, t, a, balance, some ref⟩ := by
  unfold State.recordLedger
  split
  · exact .inl rfl
  split
  · exact .inl rfl
  by_cases hneg : ‹Wallet›.balance + a < 0
  · exact .inl (by simp [hneg])
  · by_cases hk : k = key
    · subst hk
      exact .inr ⟨rfl, ‹_›, _, by simp [hneg]; rfl⟩
    · exact .inl (by simp [hneg, hk])

lemma exec_ledger_row (h : exec P o i s σ = some (r, σ')) (k : Key) :
    σ'.ledger.row k = σ.ledger.row k ∨ ∃ w a t ref balance, s = .recordLedger w a t k ref ∧
      σ.ledger.row k = none ∧ σ'.ledger.row k = some ⟨w, t, a, balance, some ref⟩ := by
  have hperform (r) (hp : perform P i s σ = some (r, σ')) : σ'.ledger.row k = σ.ledger.row k ∨
      ∃ w a t ref balance, s = .recordLedger w a t k ref ∧ σ.ledger.row k = none ∧
        σ'.ledger.row k = some ⟨w, t, a, balance, some ref⟩ := by
    cases s with
    | recordLedger w a t key ref =>
        have hσ' : (σ.recordLedger w a t key ref).2 = σ' := by
          simpa using congrArg Prod.snd (Option.some.inj hp)
        rw [← hσ']
        rcases recordLedger_row w a t key ref k with hrow | ⟨rfl, hnone, balance, hrow⟩
        · exact .inl hrow
        · exact .inr ⟨w, a, t, ref, balance, rfl, hnone, hrow⟩
    | _ => exact .inl (by rw [(perform_leaves hp).ledger rfl])
  rcases exec_cases h with hp | ⟨-, e, -, rfl | ⟨r', hp⟩⟩ | ⟨-, rfl⟩
  · exact hperform _ hp
  · exact .inl rfl
  · exact hperform _ hp
  · exact .inl rfl

lemma exec_rollback_row (h : exec P o i s σ = some (r, σ')) {ref : RollbackRef}
    {row : WalletRollback} (hrow : σ'.rollbacks.row ref = some row) :
    (∃ old, σ.rollbacks.row ref = some old ∧ old.transactionId = row.transactionId) ∨
      s = .createRollback ref row := by
  have hupdate (w : RollbackWhere) (d : RollbackData)
      (hu : (σ.updateRollbacks w d).rollbacks.row ref = some row) :
      ∃ old, σ.rollbacks.row ref = some old ∧ old.transactionId = row.transactionId := by
    obtain ⟨old, hold, rfl⟩ := Option.map_eq_some_iff.1 hu
    refine ⟨old, hold, ?_⟩
    split <;> rfl
  have hperform (r) (hp : perform P i s σ = some (r, σ')) :
      (∃ old, σ.rollbacks.row ref = some old ∧ old.transactionId = row.transactionId) ∨
        s = .createRollback ref row := by
    cases s with
    | createRollback ref' row' =>
        simp only [perform] at hp
        split_ifs at hp <;> obtain ⟨-, rfl⟩ := Prod.mk.inj (Option.some.inj hp)
        · exact .inl ⟨row, hrow, rfl⟩
        · rw [Table.row_insert] at hrow
          split_ifs at hrow with hk
          · rw [hk, ← Option.some.inj hrow]
            exact .inr rfl
          · exact .inl ⟨row, hrow, rfl⟩
    | updateRollback ref' d =>
        simp only [perform] at hp
        split_ifs at hp <;> obtain ⟨-, rfl⟩ := Prod.mk.inj (Option.some.inj hp)
        · exact .inl (hupdate _ d hrow)
        · exact .inl ⟨row, hrow, rfl⟩
    | updateRollbacks w d =>
        obtain ⟨-, rfl⟩ := Prod.mk.inj (Option.some.inj hp)
        exact .inl (hupdate w d hrow)
    | _ =>
        rw [(perform_leaves hp).rollbacks rfl] at hrow
        exact .inl ⟨row, hrow, rfl⟩
  rcases exec_cases h with hp | ⟨-, e, -, rfl | ⟨r', hp⟩⟩ | ⟨-, rfl⟩
  · exact hperform _ hp
  · exact .inl ⟨row, hrow, rfl⟩
  · exact hperform _ hp
  · exact .inl ⟨row, hrow, rfl⟩

inductive OperatorChange (σ σ' : State) (op : ℕ) (k : Key) : Stmt → Prop
  | kept {t : Stmt} (h : σ'.operator op k = σ.operator op k) : OperatorChange σ σ' op k t
  | charged {req : OperatorRequest} (ho : req.operatorId = op) (hk : req.transactionId = k)
      (h : σ'.operator op k = some ⟨req.walletId, -1 * req.amount, req.betId, true⟩) :
      OperatorChange σ σ' op k (.operatorBet req)
  | paid {req : OperatorRequest} (ho : req.operatorId = op) (hk : req.transactionId = k)
      (h : σ'.operator op k = some ⟨req.walletId, 1 * req.amount, req.betId, true⟩) :
      OperatorChange σ σ' op k (.operatorWin req)
  | undone {b : ℕ} {tx : OperatorTx} (hold : σ.operator op k = some tx) (happ : tx.applied = true)
      (h : σ'.operator op k = some { tx with applied := false }) :
      OperatorChange σ σ' op k (.operatorRollback op k b)

lemma operatorMove_row (sign : ℤ) (req : OperatorRequest) (op : ℕ) (k : Key) :
    (σ.operatorMove P sign req).2.operator op k = σ.operator op k ∨
      req.operatorId = op ∧ req.transactionId = k ∧ (σ.operatorMove P sign req).2.operator op k =
        some ⟨req.walletId, sign * req.amount, req.betId, true⟩ := by
  by_cases hk : op = req.operatorId ∧ k = req.transactionId
  · obtain ⟨rfl, rfl⟩ := hk
    unfold State.operatorMove
    dsimp only
    split
    · split_ifs
      · exact .inl rfl
      · exact .inr ⟨rfl, rfl, by simp [State.setOperatorTx]⟩
    · exact .inr ⟨rfl, rfl, by simp [State.setOperatorTx]⟩
  · left
    unfold State.operatorMove
    dsimp only
    split
    · split_ifs
      · rfl
      · simp [State.setOperatorTx, hk]
    · simp [State.setOperatorTx, hk]

lemma exec_operatorChange (h : exec P o i s σ = some (r, σ')) (op : ℕ) (k : Key) :
    OperatorChange σ σ' op k s := by
  have hperform (r) (hp : perform P i s σ = some (r, σ')) : OperatorChange σ σ' op k s := by
    cases s with
    | operatorBet req =>
        have hσ' : (σ.operatorMove P (-1) req).2 = σ' := by
          simpa using congrArg Prod.snd (Option.some.inj hp)
        rcases operatorMove_row (-1) req op k with hk | ⟨ho, hk, hrow⟩
        · exact .kept (hσ' ▸ hk)
        · exact .charged ho hk (hσ' ▸ hrow)
    | operatorWin req =>
        have hσ' : (σ.operatorMove P 1 req).2 = σ' := by
          simpa using congrArg Prod.snd (Option.some.inj hp)
        rcases operatorMove_row 1 req op k with hk | ⟨ho, hk, hrow⟩
        · exact .kept (hσ' ▸ hk)
        · exact .paid ho hk (hσ' ▸ hrow)
    | operatorRollback op' k' b =>
        obtain ⟨-, rfl⟩ := Prod.mk.inj (Option.some.inj hp)
        by_cases hk : op = op' ∧ k = k'
        · obtain ⟨rfl, rfl⟩ := hk
          cases htx : σ.operator op k with
          | none => exact .kept (by simp [State.operatorRollback, htx])
          | some tx =>
              cases happ : tx.applied with
              | false => exact .kept (by simp [State.operatorRollback, htx, happ])
              | true =>
                  exact .undone htx happ (by simp [State.operatorRollback, State.setOperatorTx, htx, happ])
        · refine .kept ?_
          unfold State.operatorRollback
          split
          · split_ifs
            · simp [State.setOperatorTx, hk]
            · rfl
          · rfl
    | _ => exact .kept (by rw [(perform_leaves hp).operator rfl])
  rcases exec_cases h with hp | ⟨-, e, -, rfl | ⟨r', hp⟩⟩ | ⟨-, rfl⟩
  · exact hperform _ hp
  · exact .kept rfl
  · exact hperform _ hp
  · exact .kept rfl

structure SameTables (σ σ' : State) : Prop where
  bets : σ'.bets = σ.bets
  rounds : σ'.rounds = σ.rounds
  wallets : σ'.wallets = σ.wallets
  ledger : σ'.ledger = σ.ledger
  rollbacks : σ'.rollbacks = σ.rollbacks
  operator : σ'.operator = σ.operator

lemma SameTables.updateNode (n : ℕ) (f : Node → Node) : SameTables σ (σ.updateNode n f) :=
  ⟨rfl, rfl, rfl, rfl, rfl, rfl⟩

lemma environment_tables {e : Event} {n : ℕ} {p : Option (Program game Outcome)}
    (h : environment P e n σ = some (σ', p)) : SameTables σ σ' := by
  cases e with
  | timer node =>
      simp only [environment, State.fire] at h
      split at h
      · cases h
      · split_ifs at h <;> obtain ⟨rfl, -⟩ := Prod.mk.inj (Option.some.inj h)
        · exact .updateNode _ _
        · exact .updateNode _ _
  | deadline node j =>
      simp only [environment, State.raceLost, State.schedule] at h
      split_ifs at h <;> obtain ⟨rfl, -⟩ := Prod.mk.inj (Option.some.inj h)
      · exact ⟨rfl, rfl, rfl, rfl, rfl, rfl⟩
      · exact ⟨rfl, rfl, rfl, rfl, rfl, rfl⟩
  | onSettle node roundId =>
      simp only [environment] at h
      split_ifs at h
      obtain ⟨rfl, -⟩ := Prod.mk.inj (Option.some.inj h)
      exact ⟨rfl, rfl, rfl, rfl, rfl, rfl⟩
  | tick ms | call c | leaderLost node | boot node =>
      obtain ⟨rfl, -⟩ := Prod.mk.inj (Option.some.inj h)
      exact ⟨rfl, rfl, rfl, rfl, rfl, rfl⟩

lemma environment_now {e : Event} {n : ℕ} {p : Option (Program game Outcome)}
    (h : environment P e n σ = some (σ', p)) :
    σ'.now = σ.now ∨ ∃ ms, e = .tick ms ∧ σ'.now = σ.now + ms := by
  cases e with
  | tick ms =>
      obtain ⟨rfl, -⟩ := Prod.mk.inj (Option.some.inj h)
      exact .inr ⟨ms, rfl, rfl⟩
  | timer node =>
      simp only [environment, State.fire] at h
      split at h
      · cases h
      · split_ifs at h <;> obtain ⟨rfl, -⟩ := Prod.mk.inj (Option.some.inj h) <;> exact .inl rfl
  | deadline node j =>
      simp only [environment, State.raceLost, State.schedule] at h
      split_ifs at h <;> obtain ⟨rfl, -⟩ := Prod.mk.inj (Option.some.inj h) <;> exact .inl rfl
  | onSettle node roundId =>
      simp only [environment] at h
      split_ifs at h
      obtain ⟨rfl, -⟩ := Prod.mk.inj (Option.some.inj h)
      exact .inl rfl
  | call c | leaderLost node | boot node =>
      obtain ⟨rfl, -⟩ := Prod.mk.inj (Option.some.inj h)
      exact .inl rfl

lemma moves_now {C : Contract (system P)} {w w' : GameWorld} (h : C.Moves w w') :
    w.state.now ≤ w'.state.now := by
  rcases h with ⟨n, e, a, p, -, he, rfl⟩ | ⟨i, -, rfl⟩
  · rcases environment_now he with hnow | ⟨ms, -, hnow⟩
    · exact hnow.ge
    · exact (Nat.le_add_right _ ms).trans hnow.ge
  · exact le_rfl

lemma moves_tables {C : Contract (system P)} {w w' : GameWorld} (h : C.Moves w w') :
    SameTables w.state w'.state := by
  rcases h with ⟨n, e, a, p, -, he, rfl⟩ | ⟨i, -, rfl⟩
  · exact environment_tables he
  · exact ⟨rfl, rfl, rfl, rfl, rfl, rfl⟩

end VaultRun.Game
