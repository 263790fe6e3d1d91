import VaultRun.Game.Lifecycle

/-!
Money that has moved under an idempotency key, on the ledger or at an operator, and what a credit that
returns has done.
-/

namespace VaultRun.Game

open VaultRun.Concurrency Program SeamlessOperatorWallet

/-- Money has moved under the key and has not been taken back, whatever the amount. -/
def Moved (k : Key) (σ : State) : Prop :=
  σ.ledger.row k ≠ none ∨ ∃ op tx, σ.operator op k = some tx ∧ tx.applied = true

def Standing (k : Key) (σ : State) : Prop :=
  ∀ op tx, σ.operator op k = some tx → tx.applied = true

section Exec

variable {P : Params} {o : Oracle} {i : ℕ} {s : Stmt} {σ σ' : State} {r : game.Reply s} {k : Key}

lemma ledger_row_ne_none (h : exec P o i s σ = some (r, σ')) (hk : σ.ledger.row k ≠ none) :
    σ'.ledger.row k ≠ none := by
  rcases exec_ledger_row h k with hrow | ⟨_, _, _, _, _, -, hnone, -⟩
  · rwa [hrow]
  · exact absurd hnone hk

lemma Moved.exec (ha : Moved k σ) (h : exec P o i s σ = some (r, σ')) (hs : s.undone ≠ some k) :
    Moved k σ' := by
  rcases ha with hl | ⟨op, tx, htx, happ⟩
  · exact .inl (ledger_row_ne_none h hl)
  · right
    rcases exec_operatorChange h op k with hk | ⟨-, -, hrow⟩ | ⟨-, -, hrow⟩ | ⟨-, -, -⟩
    · exact ⟨op, tx, hk.trans htx, happ⟩
    · exact ⟨op, _, hrow, rfl⟩
    · exact ⟨op, _, hrow, rfl⟩
    · exact absurd rfl hs

lemma Standing.exec (hst : Standing k σ) (h : exec P o i s σ = some (r, σ'))
    (hs : s.undone ≠ some k) : Standing k σ' := by
  intro op tx htx
  rcases exec_operatorChange h op k with hk | ⟨-, -, hrow⟩ | ⟨-, -, hrow⟩ | ⟨-, -, -⟩
  · exact hst op tx (hk.symm.trans htx)
  · rw [← Option.some.inj (hrow.symm.trans htx)]
  · rw [← Option.some.inj (hrow.symm.trans htx)]
  · exact absurd rfl hs

lemma Moved.same (ha : Moved k σ) (h : SameTables σ σ') : Moved k σ' := by
  unfold Moved
  rwa [h.ledger, h.operator]

lemma Standing.same (hst : Standing k σ) (h : SameTables σ σ') : Standing k σ' := by
  unfold Standing
  rwa [h.operator]

lemma recorded {w ref : ℕ} {a : ℤ} {t : LedgerType} {res : WalletTxResult}
    (h : exec P o i (.recordLedger w a t k ref) σ = some (.ok res, σ')) : σ'.ledger.row k ≠ none := by
  have hp := perform_of_ok h rfl
  simp only [perform, State.recordLedger, Option.some.injEq] at hp
  split at hp
  · obtain ⟨-, rfl⟩ := Prod.mk.inj hp
    simp_all
  split at hp
  · cases (Prod.mk.inj hp).1
  split_ifs at hp
  · cases (Prod.mk.inj hp).1
  · obtain ⟨-, rfl⟩ := Prod.mk.inj hp
    simp

lemma moved_of_recordLedger {w ref : ℕ} {a : ℤ} {t : LedgerType} {res : WalletTxResult}
    (h : exec P o i (.recordLedger w a t k ref) σ = some (.ok res, σ')) : Moved k σ' :=
  .inl (recorded h)

/-- A known transaction answers without paying, but it is still in force. -/
lemma moved_of_operatorMove {sign : ℤ} {req : OperatorRequest}
    (hst : Standing req.transactionId σ) :
    Moved req.transactionId (σ.operatorMove P sign req).2 := by
  right
  unfold State.operatorMove
  dsimp only
  split
  · rename_i tx htx
    have happ := hst _ _ htx
    exact ⟨req.operatorId, tx, by simp [happ, htx], happ⟩
  · exact ⟨req.operatorId, ⟨req.walletId, sign * req.amount, req.betId, true⟩,
      by simp [State.setOperatorTx], rfl⟩

lemma moved_of_delivered {w ref : ℕ} {a : ℤ} {t : LedgerType} {r : Except Err WalletTxResult}
    (h : exec P o i (.recordLedger w a t k ref) σ = some (r, σ')) (ho : o ≠ .lost)
    (hbalance : (σ.wallets.row w).any (0 ≤ ·.balance + a)) : Moved k σ' := by
  obtain ⟨x, hx, hpos⟩ := (Option.any_eq_true _ _).1 hbalance
  have hneg : ¬ x.balance + a < 0 := by simpa using hpos
  have hrecord : (σ.recordLedger w a t k ref).2.ledger.row k ≠ none := by
    cases hk : σ.ledger.row k with
    | some row => simp [State.recordLedger, hk]
    | none => simp [State.recordLedger, hk, hx, hneg]
  left
  cases o with
  | ok =>
      obtain ⟨-, rfl⟩ := Prod.mk.inj (Option.some.inj h)
      exact hrecord
  | unacked =>
      obtain ⟨-, rfl⟩ := Prod.mk.inj (Option.some.inj h)
      exact hrecord
  | lost => exact absurd rfl ho
  | _ => cases h

lemma moved_of_operatorWin {req : OperatorRequest} {res : WalletTxResult}
    (h : exec P o i (.operatorWin req) σ = some (.ok res, σ'))
    (hst : Standing req.transactionId σ) : Moved req.transactionId σ' := by
  have hσ' : (σ.operatorMove P 1 req).2 = σ' := by
    simpa using congrArg Prod.snd (Option.some.inj (perform_of_ok h rfl))
  exact hσ' ▸ moved_of_operatorMove hst

/-- A payment that fails before the operator has seen it has no effect; any other one applies it. -/
lemma operatorWin_cases {req : OperatorRequest} {r : Except Err WalletTxResult}
    (h : exec P o i (.operatorWin req) σ = some (r, σ')) (hst : Standing req.transactionId σ) :
    (o = .lost ∨ o = .timedOut false) ∨ Moved req.transactionId σ' := by
  have hmove : Moved req.transactionId (σ.operatorMove P 1 req).2 := moved_of_operatorMove hst
  cases o with
  | ok =>
      obtain ⟨-, rfl⟩ := Prod.mk.inj (Option.some.inj h)
      exact .inr hmove
  | unacked =>
      obtain ⟨-, rfl⟩ := Prod.mk.inj (Option.some.inj h)
      exact .inr hmove
  | lost => exact .inl (.inl rfl)
  | timedOut applied =>
      cases applied with
      | false => exact .inl (.inr rfl)
      | true =>
          obtain ⟨-, rfl⟩ := Prod.mk.inj (Option.some.inj h)
          exact .inr hmove
  | _ => cases h

end Exec

section Credit

variable {P : Params} {C : Contract (system P)} {i : ℕ} {w : GameWorld} {k : Key}
  {J A : GameWorld → Prop}

/-- `J` after every outcome, and `A` after a return. -/
def Credited (J A : GameWorld → Prop) (r : Except Err WalletTxResult) (w : GameWorld) : Prop :=
  J w ∧ ((∃ a, r = .ok a) → A w)

structure CreditRules (C : Contract (system P)) (i : ℕ) (k : Key) (J A : GameWorld → Prop) : Prop where
  stable : C.Stable i J
  stable_paid : C.Stable i A
  step : ∀ (s : Stmt) w, s.ofWallet → (∀ k' ∈ s.key, k' = k) → s.undone = none → C.inv w → J w →
    C.pre i s w ∧ ∀ r w', C.Answers i s w r w' → C.inv w' → J w' ∧ (A w → A w')
  paid : ∀ w, C.inv w → Moved k w.state → A w
  standing : ∀ w, C.inv w → A w ∨ Standing k w.state

variable (h : CreditRules C i k J A)
include h

lemma sat_moveWin {req : OperatorRequest} (hk : req.transactionId = k) (n : ℕ) (hi : C.inv w)
    (hw : J w) : Sat C i (Credited J A) (moveWin req n) w := by
  induction n generalizing w with
  | zero => exact fun w₁ h₁ _ => ⟨h.stable.interferes h₁ hw, by simp⟩
  | succ n ih =>
      refine sat_catching (sat_await fun w₁ h₁ hi₁ => ?_)
      obtain ⟨hpre, hstep⟩ := h.step (.operatorWin req) w₁ rfl (by simpa using hk) rfl hi₁
        (h.stable.interferes h₁ hw)
      refine ⟨hpre, fun r w₂ ha hi₂ w₃ h₃ hi₃ => ?_⟩
      have hw₃ := h.stable.interferes h₃ (hstep r w₂ ha hi₂).1
      cases r with
      | error e =>
          dsimp only
          split
          · exact fun w₄ h₄ _ => ⟨h.stable.interferes h₄ hw₃, by simp⟩
          · exact ih hi₃ hw₃
      | ok res =>
          refine ⟨hw₃, fun _ => h.stable_paid.interferes h₃ ?_⟩
          rcases h.standing w₁ hi₁ with hA | hst
          · exact (hstep _ w₂ ha hi₂).2 hA
          · obtain ⟨o, σ', -, hexec, rfl⟩ := ha
            subst hk
            exact h.paid _ hi₂ (moved_of_operatorWin hexec hst)

lemma sat_ledger_credit (wl : ℕ) (amt : ℤ) (t : LedgerType) (ref : ℕ) (hw : J w) :
    Sat C i (Credited J A) (LedgerService.credit wl amt t k ref) w := by
  unfold LedgerService.credit
  split
  · exact fun w₁ h₁ _ => ⟨h.stable.interferes h₁ hw, by simp⟩
  refine sat_await fun w₁ h₁ hi₁ => ?_
  obtain ⟨hpre, hstep⟩ := h.step (.recordLedger wl amt t k ref) w₁ rfl (by simp) rfl hi₁
    (h.stable.interferes h₁ hw)
  refine ⟨hpre, fun r w₂ ha hi₂ w₃ h₃ hi₃ => ⟨h.stable.interferes h₃ (hstep r w₂ ha hi₂).1, ?_⟩⟩
  rintro ⟨a, rfl⟩
  refine h.stable_paid.interferes h₃ (h.paid _ hi₂ ?_)
  obtain ⟨o, σ', -, hexec, rfl⟩ := ha
  exact moved_of_recordLedger hexec

/-- A credit that returns has moved the money, whichever wallet it went to. -/
lemma sat_credit (wl : ℕ) (amt : ℤ) (t : LedgerType) (ref : ℕ) (hw : J w) :
    Sat C i (Credited J A) (P.wallet.credit wl amt t k ref) w := by
  have hoperator {w : GameWorld} (hw : J w) :
      Sat C i (Credited J A) (SeamlessOperatorWallet.credit wl amt t k ref) w := by
    refine sat_await_bind fun w₁ h₁ hi₁ => ?_
    obtain ⟨hpre, hstep⟩ := h.step (.resolveSession wl) w₁ rfl (by simp) rfl hi₁
      (h.stable.interferes h₁ hw)
    refine ⟨hpre, fun r w₂ ha hi₂ => ?_⟩
    have hw₂ := (hstep r w₂ ha hi₂).1
    cases r with
    | error e => exact fun w₃ h₃ _ => ⟨h.stable.interferes h₃ hw₂, by simp⟩
    | ok s => exact sat_moveWin h rfl _ hi₂ hw₂
  unfold Params.wallet
  cases P.operatorMode with
  | false => exact sat_ledger_credit h wl amt t ref hw
  | true =>
      refine sat_await_bind fun w₁ h₁ hi₁ => ?_
      obtain ⟨hpre, hstep⟩ := h.step (.isDemoWallet wl) w₁ rfl (by simp) rfl hi₁
        (h.stable.interferes h₁ hw)
      refine ⟨hpre, fun r w₂ ha hi₂ => ?_⟩
      have hw₂ := (hstep r w₂ ha hi₂).1
      cases r with
      | error e => exact fun w₃ h₃ _ => ⟨h.stable.interferes h₃ hw₂, by simp⟩
      | ok demo =>
          dsimp only
          split
          · exact sat_ledger_credit h wl amt t ref hw₂
          · exact hoperator hw₂

end Credit

section Recovery

inductive RecoveryScan : BetWhere → Prop
  | slots (cutoff : Option ℕ) :
      RecoveryScan { status := some [.reserving, .cancelling], createdBefore := cutoff }
  | interrupted (roundId : ℕ) :
      RecoveryScan { roundId := some roundId, status := some [.active] }
  | stranded (cutoff : ℕ) :
      RecoveryScan { status := some [.active], refundedBefore := some cutoff }
  | pendingPayouts : RecoveryScan { status := some [.payoutPending] }
  | voiding : RecoveryScan { status := some [.voiding] }

/-- Some recovery pass still selects bet `b`. -/
def Recoverable (b : ℕ) (σ : State) : Prop :=
  ∃ wh, RecoveryScan wh ∧ ∃ x, σ.bets.row b = some x ∧ wh.holds σ.rounds b x

lemma not_recoverable {σ : State} {b : ℕ} {x : Bet} (hx : σ.bets.row b = some x)
    (hst : x.status ∈ [BetStatus.cashedOut, .busted, .cancelled, .voided]) : ¬ Recoverable b σ := by
  rintro ⟨wh, hscan, y, hy, hwh⟩
  obtain rfl := Option.some.inj (hx.symm.trans hy)
  have hin : wh.status.all (x.status ∈ ·) := by
    simp only [BetWhere.holds, Bool.and_eq_true] at hwh
    exact hwh.1.1.1.1.2
  simp only [List.mem_cons, List.not_mem_nil, or_false] at hst
  rcases hst with hst | hst | hst | hst <;> rw [hst] at hin <;> cases hscan <;> simp at hin

end Recovery

end VaultRun.Game
