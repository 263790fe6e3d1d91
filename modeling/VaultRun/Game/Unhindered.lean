import VaultRun.Concurrency.Alone
import VaultRun.Game.Outbox
import VaultRun.Game.Routine

/-!
What the parts of the service do when every statement goes through and no other call comes in between.
-/

namespace VaultRun.Game

open VaultRun.Concurrency VaultRun.Data Program WalletRollbackService SeamlessOperatorWallet

def unhindered (o : Oracle) (_ : Stmt) : Prop := o = .ok

abbrev Finishes (P : Params) (i : ℕ) {α : Type} (Q : Except Err α → State → Prop) (p : Program game α) (σ : State) :
    Prop :=
  Ends (system P) unhindered i Q p σ

structure SameBooks (σ σ' : State) : Prop where
  bets : σ'.bets = σ.bets
  rounds : σ'.rounds = σ.rounds
  ledger : σ'.ledger = σ.ledger
  wallets : σ'.wallets = σ.wallets
  nodes : σ'.nodes = σ.nodes
  now : σ'.now = σ.now

lemma SameBooks.refl (σ : State) : SameBooks σ σ := ⟨rfl, rfl, rfl, rfl, rfl, rfl⟩

lemma SameBooks.trans {σ₁ σ₂ σ₃ : State} (h : SameBooks σ₁ σ₂) (h' : SameBooks σ₂ σ₃) : SameBooks σ₁ σ₃ :=
  ⟨h'.bets.trans h.bets, h'.rounds.trans h.rounds, h'.ledger.trans h.ledger, h'.wallets.trans h.wallets,
    h'.nodes.trans h.nodes, h'.now.trans h.now⟩

section Finishes

variable {P : Params} {i : ℕ} {s : Stmt} {σ σ' : State} {r : game.Reply s} {α β : Type}

lemma finishes_await {Q : Except Err s.Result → State → Prop} {r : Except Err s.Result}
    (hp : perform P i s σ = some (r, σ')) (h : Q r σ') : Finishes P i Q (await s) σ :=
  ends_await (I := game) (show unhindered .ok s from rfl) hp h

lemma finishes_await_bind {T : Except Err β → State → Prop} {f : s.Result → Program game β} {x : s.Result}
    (hp : perform P i s σ = some (.ok x, σ')) (h : Finishes P i T (f x) σ') : Finishes P i T (await s >>= f) σ :=
  ends_await_bind (I := game) (show unhindered .ok s from rfl) hp h

attribute [local grind] State.recordLedger State.operatorMove State.operatorRollback State.createRound
  State.createBet State.schedule State.raceLost State.enterPhase State.beginStart State.stop
  State.emitSettle State.updateNode State.setOperatorTx State.endTx State.updateBets
  State.updateRollbacks State.updateRound State.stampCrashed in
lemma perform_wallets (h : perform P i s σ = some (r, σ')) (hs : s.writesLedger = false) : σ'.wallets = σ.wallets := by
  cases s <;> simp only [perform, Option.some.injEq, Prod.mk.injEq] at h <;> grind

end Finishes

section Posting

variable {σ σ' : State} {w : ℕ} {a : ℤ} {ty : LedgerType} {key : Key} {ref : ℕ} {r : Except Err WalletTxResult}

def State.post (σ : State) (key : Key) (z : Wallet) (l : LedgerTransaction) : State :=
  { σ with
    wallets := σ.wallets.insert l.walletId { z with balance := l.balanceAfter }
    ledger := σ.ledger.insert key l }

/-- What a posting does: it finds its row, or writes it, or finds no wallet or not enough in it. -/
lemma recordLedger_cases (hr : σ.recordLedger w a ty key ref = (r, σ')) :
    (σ' = σ ∧ σ.ledger.row key ≠ none ∧ ∃ tx, r = .ok tx) ∨
    (σ.ledger.row key = none ∧ (∃ tx, r = .ok tx) ∧ ∃ z, σ.wallets.row w = some z ∧ 0 ≤ z.balance + a ∧
      σ' = σ.post key z ⟨w, ty, a, z.balance + a, some ref⟩) ∨
    (σ' = σ ∧ σ.ledger.row key = none ∧ (∃ e, r = .error e) ∧ ∀ z, σ.wallets.row w = some z → z.balance + a < 0) := by
  unfold State.recordLedger at hr
  split at hr
  · rename_i row hrow
    obtain ⟨rfl, rfl⟩ := Prod.mk.inj hr
    exact .inl ⟨rfl, by simp [hrow], _, rfl⟩
  · rename_i hrow
    split at hr
    · rename_i hw
      obtain ⟨rfl, rfl⟩ := Prod.mk.inj hr
      exact .inr (.inr ⟨rfl, hrow, ⟨_, rfl⟩, fun z hz => by simp [hw] at hz⟩)
    · rename_i z hw
      dsimp only at hr
      split at hr
      · rename_i hneg
        obtain ⟨rfl, rfl⟩ := Prod.mk.inj hr
        refine .inr (.inr ⟨rfl, hrow, ⟨_, rfl⟩, fun z' hz' => ?_⟩)
        obtain rfl := Option.some.inj (hw.symm.trans hz')
        exact hneg
      · obtain ⟨rfl, rfl⟩ := Prod.mk.inj hr
        exact .inr (.inl ⟨hrow, ⟨_, rfl⟩, z, hw, by omega, rfl⟩)

end Posting

section Rollback

variable {P : Params} {i : ℕ} {σ σ' : State} {ref ref' : RollbackRef} {row : WalletRollback} {w : RollbackWhere}
  {d : RollbackData} {k : Key}

lemma operatorRollback_operator {o o' : ℕ} {k' : Key} : (σ.operatorRollback o k).operator o' k' =
    if o' = o ∧ k' = k then (σ.operator o k).map ({ · with applied := false }) else σ.operator o' k' := by
  unfold State.operatorRollback
  split
  · rename_i t ht
    split
    · simp [State.setOperatorTx, ht]
    · rename_i happlied
      split
      · rename_i hself
        obtain ⟨wallet, amount, bet, applied⟩ := t
        simp_all
      · rfl
  · rename_i hnone
    split
    · simp_all
    · rfl

lemma operatorRollback_same (o : ℕ) (k : Key) :
    SameBooks σ (σ.operatorRollback o k) ∧ (σ.operatorRollback o k).rollbacks = σ.rollbacks := by
  unfold State.operatorRollback
  split
  · split <;> exact ⟨⟨rfl, rfl, rfl, rfl, rfl, rfl⟩, rfl⟩
  · exact ⟨.refl σ, rfl⟩

lemma updateRollbacks_self (hr : σ.rollbacks.row ref = some row) (hw : w.holds ref row) :
    (σ.updateRollbacks w d).rollbacks.row ref = some (d.apply row) := by
  simp [updateRollbacks_row, hr, hw]

lemma finishes_acquireLease (hr : σ.rollbacks.row ref = some row) :
    Finishes P i (fun a σ' => a = .ok true ∧ ∃ lease, σ' = σ.updateRollbacks
      { ref := ref, pinned := some (row.status, row.leaseUntil) } { status := some .draining, leaseUntil := some lease })
      (acquireLease ref row) σ := by
  have hone := count_pinned.2 (⟨row, hr, rfl, fun _ => rfl⟩ : Pinned ref (row.status, row.leaseUntil) σ)
  refine finishes_await_bind rfl (finishes_await_bind rfl (ends_ret ⟨?_, _, rfl⟩))
  simp [hone]

lemma finishes_bumpAttempts (hr : σ.rollbacks.row ref = some row) :
    Finishes P i (fun r σ' => r = .ok () ∧ σ' = σ.updateRollbacks { ref := ref } { attempts := (· + 1) })
      (bumpAttempts ref) σ := by
  have hp : perform P i (.updateRollback ref { attempts := (· + 1) }) σ =
      some (.ok (), σ.updateRollbacks { ref := ref } { attempts := (· + 1) }) := by simp [perform, hr]
  exact ends_catching (finishes_await hp ⟨rfl, rfl⟩)

/-- The rollback is confirmed, or another call is at it. -/
def Underway (ref : RollbackRef) (σ : State) : Prop :=
  ∃ row, σ.rollbacks.row ref = some row ∧ (row.status = .confirmed ∨ hasLiveLease row σ.now)

lemma underway_congr (hrow : σ'.rollbacks.row ref = σ.rollbacks.row ref) (hnow : σ'.now = σ.now) :
    Underway ref σ' ↔ Underway ref σ := by
  unfold Underway
  rw [hrow, hnow]

lemma confirmed_congr (hrow : σ'.rollbacks.row ref = σ.rollbacks.row ref) : Confirmed ref σ' ↔ Confirmed ref σ := by
  unfold Confirmed
  rw [hrow]

/-- A rollback that is underway is left to be, and any other is taken. -/
lemma finishes_claim (a : Option ℤ) :
    Finishes P i (fun r σ' => SameBooks σ σ' ∧ σ'.operator = σ.operator ∧
      (∀ ref', ref' ≠ ref → σ'.rollbacks.row ref' = σ.rollbacks.row ref') ∧ ∃ c, r = .ok c ∧
      ((Underway ref σ ∧ Underway ref σ' ∧ (c.alreadyConfirmed || c.inFlight)) ∨
        (¬ Underway ref σ ∧ c = ⟨false, false⟩ ∧ (σ'.rollbacks.row ref).isSome))) (claim ref k a) σ := by
  refine ends_catching (finishes_await_bind rfl ?_)
  cases hrow : σ.rollbacks.row ref with
  | none =>
      have hnot : ¬ Underway ref σ := by
        rintro ⟨row, hr, -⟩
        rw [hrow] at hr
        cases hr
      have hp : perform P i (.createRollback ref ⟨k, a, .draining, 0, some (σ.now + drainLeaseMs)⟩) σ = some (.ok (),
          { σ with rollbacks := σ.rollbacks.insert ref ⟨k, a, .draining, 0, some (σ.now + drainLeaseMs)⟩ }) := by
        simp [perform, hrow]
      refine finishes_await_bind rfl (ends_catching (finishes_await_bind hp (ends_ret ?_)))
      exact ⟨⟨rfl, rfl, rfl, rfl, rfl, rfl⟩, rfl, fun ref' hne => by simp [hne], _, rfl, .inr ⟨hnot, rfl, by simp⟩⟩
  | some row =>
      dsimp only
      by_cases hst : row.status = .confirmed
      · have hunder : Underway ref σ := ⟨row, hrow, .inl hst⟩
        rw [if_pos hst]
        exact ends_ret ⟨.refl σ, rfl, fun _ _ => rfl, _, rfl, .inl ⟨hunder, hunder, rfl⟩⟩
      rw [if_neg hst]
      refine finishes_await_bind rfl ?_
      split
      · rename_i hlive
        have hunder : Underway ref σ := ⟨row, hrow, .inr hlive⟩
        refine ends_bind ((finishes_bumpAttempts hrow).mono ?_)
        rintro r σ₁ ⟨rfl, rfl⟩
        have hbumped := updateRollbacks_self (w := { ref := ref }) (d := { attempts := (· + 1) }) hrow
          (by simp [RollbackWhere.holds])
        exact ends_ret ⟨⟨rfl, rfl, rfl, rfl, rfl, rfl⟩, rfl, fun ref' hne => updateRollbacks_ne hne, _, rfl,
          .inl ⟨hunder, ⟨_, hbumped, .inr hlive⟩, rfl⟩⟩
      · rename_i hlive
        have hnot : ¬ Underway ref σ := by
          rintro ⟨row', hr, hconfirmed | hlease⟩
          · obtain rfl := Option.some.inj (hrow.symm.trans hr)
            exact hst hconfirmed
          · obtain rfl := Option.some.inj (hrow.symm.trans hr)
            exact hlive hlease
        refine ends_bind ((finishes_acquireLease hrow).mono ?_)
        rintro r σ₁ ⟨rfl, lease, rfl⟩
        have htaken := updateRollbacks_self (w := { ref := ref, pinned := some (row.status, row.leaseUntil) })
          (d := { status := some .draining, leaseUntil := some lease }) hrow (by simp [RollbackWhere.holds])
        exact ends_ret ⟨⟨rfl, rfl, rfl, rfl, rfl, rfl⟩, rfl, fun ref' hne => updateRollbacks_ne hne, _, rfl,
          .inr ⟨hnot, rfl, by rw [htaken]; rfl⟩⟩

/-- What a rollback makes of the outbox and of the operators: unless it is underway, its row is confirmed and its
transaction taken back. -/
structure RolledBack (σ σ' : State) (ref : RollbackRef) (k : Key) : Prop where
  done : ¬ Underway ref σ → Confirmed ref σ' ∧
    σ'.operator ref.operatorId k = (σ.operator ref.operatorId k).map ({ · with applied := false })
  left : Underway ref σ → Underway ref σ' ∧ σ'.operator ref.operatorId k = σ.operator ref.operatorId k
  transactions : ∀ o k', ¬ (o = ref.operatorId ∧ k' = k) → σ'.operator o k' = σ.operator o k'
  rows : ∀ ref', ref' ≠ ref → σ'.rollbacks.row ref' = σ.rollbacks.row ref'

lemma finishes_rollbackOnce (s : OperatorSession) (k : Key) (b : ℕ) (reason : Intent) (propagate : Bool)
    (a : Option ℤ) :
    Finishes P i (fun r σ' => r = .ok () ∧ SameBooks σ σ' ∧ RolledBack σ σ' ⟨s.operatorId, b, reason⟩ k)
      (rollbackOnce s k b reason propagate a) σ := by
  refine ends_bind ((finishes_claim a).mono ?_)
  rintro r σ₁ ⟨h₁, hoperator, hrows, c, rfl, ⟨hunder, hunder₁, hlost⟩ | ⟨hnot, rfl, hrow⟩⟩
  · dsimp only
    rw [if_pos hlost]
    exact ends_ret ⟨rfl, h₁, fun hnot => absurd hunder hnot, fun _ => ⟨hunder₁, by rw [hoperator]⟩,
      fun o k' _ => by rw [hoperator], hrows⟩
  · obtain ⟨row, hrow⟩ := Option.isSome_iff_exists.1 hrow
    obtain ⟨hsame, hrollbacks⟩ := operatorRollback_same (σ := σ₁) s.operatorId k
    refine ends_catching (finishes_await_bind rfl (ends_catching (finishes_await_bind rfl (ends_ret
      ⟨rfl, (h₁.trans hsame).trans ⟨rfl, rfl, rfl, rfl, rfl, rfl⟩, fun _ => ⟨?_, ?_⟩, fun h => absurd h hnot,
        fun o k' hne => ?_, fun ref' hne => ?_⟩))))
    · have hconfirmed := updateRollbacks_self (σ := σ₁.operatorRollback s.operatorId k)
        (w := { ref := ⟨s.operatorId, b, reason⟩ }) (d := { status := some .confirmed, leaseUntil := some none })
        (by rw [hrollbacks]; exact hrow) (by simp [RollbackWhere.holds])
      unfold Confirmed
      rw [hconfirmed]
      rfl
    · refine operatorRollback_operator.trans ?_
      rw [if_pos ⟨rfl, rfl⟩, hoperator]
    · refine operatorRollback_operator.trans ?_
      rw [if_neg hne, hoperator]
    · rw [updateRollbacks_ne hne, hrollbacks, hrows ref' hne]

end Rollback

def Params.onLedger (P : Params) (w : ℕ) : Bool := !P.operatorMode || P.isDemoWallet w

def State.Solvent (σ : State) (w : ℕ) : Prop := ∃ z, σ.wallets.row w = some z ∧ 0 ≤ z.balance

def State.credited (P : Params) (σ : State) (w : ℕ) (a : ℤ) (ty : LedgerType) (key : Key) (ref : ℕ) : State :=
  if P.onLedger w then (σ.recordLedger w a ty key ref).2 else σ

section Credit

variable {P : Params} {i w w' : ℕ} {a : ℤ} {ty : LedgerType} {key : Key} {ref : ℕ} {σ : State}

/-- A credit leaves the bets and the rounds, and adds at most the row under its key. -/
structure Credits (P : Params) (σ σ' : State) (w : ℕ) (a : ℤ) (ty : LedgerType) (key : Key) (ref : ℕ) : Prop where
  bets : σ'.bets = σ.bets
  rounds : σ'.rounds = σ.rounds
  nodes : σ'.nodes = σ.nodes
  now : σ'.now = σ.now
  others : ∀ k, k ≠ key → σ'.ledger.row k = σ.ledger.row k
  kept : σ.ledger.row key ≠ none → σ'.ledger.row key = σ.ledger.row key
  posted : P.onLedger w → σ.ledger.row key = none →
    ∃ balance, σ'.ledger.row key = some ⟨w, ty, a, balance, some ref⟩
  solvent : ∀ w', σ.Solvent w' → σ'.Solvent w'

lemma credits_credited (ha : 0 < a) (hs : P.onLedger w → σ.Solvent w) :
    Credits P σ (σ.credited P w a ty key ref) w a ty key ref := by
  unfold State.credited
  split
  · rename_i hon
    obtain ⟨z, hz, hbalance⟩ := hs hon
    obtain ⟨r, σ', hr⟩ : ∃ r σ', σ.recordLedger w a ty key ref = (r, σ') := ⟨_, _, rfl⟩
    rw [hr]
    rcases recordLedger_cases hr with ⟨rfl, hrow, -⟩ | ⟨hnone, -, z', hz', hpos, rfl⟩ | ⟨-, -, -, hneg⟩
    · exact ⟨rfl, rfl, rfl, rfl, fun _ _ => rfl, fun _ => rfl, fun _ hnone => absurd hnone hrow, fun _ h => h⟩
    · refine ⟨rfl, rfl, rfl, rfl, fun k hk => by simp [State.post, hk], fun h => absurd hnone h,
        fun _ _ => ⟨_, by simp [State.post]; rfl⟩, fun w' hw' => ?_⟩
      by_cases heq : w' = w
      · subst heq
        exact ⟨_, by simp [State.post]; rfl, hpos⟩
      · obtain ⟨y, hy, hle⟩ := hw'
        exact ⟨y, by simpa [State.post, heq] using hy, hle⟩
    · have hlow := hneg z hz
      omega
  · rename_i hon
    exact ⟨rfl, rfl, rfl, rfl, fun _ _ => rfl, fun _ => rfl, fun h => absurd h hon, fun _ h => h⟩

/-- What a credit makes of the operators: on a wallet that is not on the ledger the win stands at its operator. -/
structure Wins (P : Params) (σ σ' : State) (w : ℕ) (a : ℤ) (key : Key) (ref : ℕ) : Prop where
  won : P.onLedger w = false → σ.operator (P.session w).operatorId key = none →
    σ'.operator (P.session w).operatorId key = some ⟨w, a, ref, true⟩
  kept : ∀ o k t, σ.operator o k = some t → t.applied → σ'.operator o k = some t
  others : ∀ o k, ¬ (P.onLedger w = false ∧ o = (P.session w).operatorId ∧ k = key) →
    σ'.operator o k = σ.operator o k
  outbox : σ'.rollbacks = σ.rollbacks

lemma wins_of_onLedger {σ' : State} (hon : P.onLedger w) (hoperator : σ'.operator = σ.operator)
    (hrollbacks : σ'.rollbacks = σ.rollbacks) : Wins P σ σ' w a key ref :=
  ⟨fun h => by simp [hon] at h, fun o k t ht _ => by rw [hoperator, ht], fun o k _ => by rw [hoperator], hrollbacks⟩

lemma operatorMove_same (sign : ℤ) (req : OperatorRequest) : SameBooks σ (σ.operatorMove P sign req).2 := by
  unfold State.operatorMove
  dsimp only
  split
  · split
    · exact .refl σ
    · exact ⟨rfl, rfl, rfl, rfl, rfl, rfl⟩
  · exact ⟨rfl, rfl, rfl, rfl, rfl, rfl⟩

lemma wins_operatorMove (hon : P.onLedger w = false) :
    Wins P σ (σ.operatorMove P 1 ⟨(P.session w).operatorId, w, a, key, ref⟩).2 w a key ref := by
  have hcharged (t : OperatorTx) (change : ℤ) (o : ℕ) (k : Key)
      (hne : ¬ (P.onLedger w = false ∧ o = (P.session w).operatorId ∧ k = key)) :
      (σ.setOperatorTx (P.session w).operatorId key t change).operator o k = σ.operator o k :=
    if_neg fun h => hne ⟨hon, h⟩
  unfold State.operatorMove
  dsimp only
  split
  · rename_i t ht
    split
    · exact ⟨fun _ hnone => absurd (ht.symm.trans hnone) (by simp), fun _ _ _ h _ => h, fun _ _ _ => rfl, rfl⟩
    · rename_i hre
      refine ⟨fun _ hnone => absurd (ht.symm.trans hnone) (by simp), fun o k t' ht' happlied => ?_, hcharged _ _, rfl⟩
      rw [hcharged _ _ o k, ht']
      rintro ⟨-, rfl, rfl⟩
      obtain rfl := Option.some.inj (ht.symm.trans ht')
      exact hre (.inl happlied)
  · rename_i hnone
    refine ⟨fun _ _ => by simp [State.setOperatorTx], fun o k t' ht' _ => ?_, hcharged _ _, rfl⟩
    rw [hcharged _ _ o k, ht']
    rintro ⟨-, rfl, rfl⟩
    cases hnone.symm.trans ht'

lemma SameBooks.credits {σ₁ σ₂ : State} (h : SameBooks σ₁ σ₂) (hc : Credits P σ σ₁ w a ty key ref) :
    Credits P σ σ₂ w a ty key ref where
  bets := h.bets.trans hc.bets
  rounds := h.rounds.trans hc.rounds
  nodes := h.nodes.trans hc.nodes
  now := h.now.trans hc.now
  others k hk := by rw [h.ledger, hc.others k hk]
  kept hk := by rw [h.ledger, hc.kept hk]
  posted hon hnone := by
    rw [h.ledger]
    exact hc.posted hon hnone
  solvent w' hw' := by
    obtain ⟨z, hz, hle⟩ := hc.solvent w' hw'
    exact ⟨z, by rw [h.wallets, hz], hle⟩

lemma recordLedger_outside : (σ.recordLedger w a ty key ref).2.operator = σ.operator ∧
    (σ.recordLedger w a ty key ref).2.rollbacks = σ.rollbacks := by
  obtain ⟨r, σ', hr⟩ : ∃ r σ', σ.recordLedger w a ty key ref = (r, σ') := ⟨_, _, rfl⟩
  rw [hr]
  rcases recordLedger_cases hr with ⟨rfl, -⟩ | ⟨-, -, z, -, -, rfl⟩ | ⟨rfl, -⟩ <;> exact ⟨rfl, rfl⟩

lemma finishes_ledger_credit (ha : 0 < a) (hs : σ.Solvent w) (hon : P.onLedger w) :
    Finishes P i (fun r σ' => (∃ tx, r = .ok tx ∧ tx.id = key) ∧ Credits P σ σ' w a ty key ref ∧
      σ'.operator = σ.operator ∧ σ'.rollbacks = σ.rollbacks) (LedgerService.credit w a ty key ref) σ := by
  have hcredits : Credits P σ (σ.recordLedger w a ty key ref).2 w a ty key ref := by
    rw [show (σ.recordLedger w a ty key ref).2 = σ.credited P w a ty key ref from (if_pos hon).symm]
    exact credits_credited ha fun _ => hs
  have hout : (σ.recordLedger w a ty key ref).2.operator = σ.operator ∧
      (σ.recordLedger w a ty key ref).2.rollbacks = σ.rollbacks := recordLedger_outside
  unfold LedgerService.credit
  rw [if_neg (by omega)]
  obtain ⟨r, σ', hr⟩ : ∃ r σ', σ.recordLedger w a ty key ref = (r, σ') := ⟨_, _, rfl⟩
  have hp : perform P i (.recordLedger w a ty key ref) σ = some (r, σ') := congrArg some hr
  rw [hr] at hcredits hout
  refine finishes_await hp ⟨?_, hcredits, hout⟩
  obtain ⟨z, hz, hbalance⟩ := hs
  unfold State.recordLedger at hr
  split at hr
  · exact ⟨_, (Prod.mk.inj hr).1.symm, rfl⟩
  · rw [hz] at hr
    dsimp only at hr
    rw [if_neg (by omega)] at hr
    exact ⟨_, (Prod.mk.inj hr).1.symm, rfl⟩

lemma finishes_operator_credit (hon : P.onLedger w = false) :
    Finishes P i (fun r σ' => (∃ tx, r = .ok tx ∧ tx.id = key) ∧ Credits P σ σ' w a ty key ref ∧
      Wins P σ σ' w a key ref) (SeamlessOperatorWallet.credit w a ty key ref) σ := by
  have hnone : Credits P σ σ w a ty key ref :=
    ⟨rfl, rfl, rfl, rfl, fun _ _ => rfl, fun _ => rfl, fun h => by simp [hon] at h, fun _ h => h⟩
  let req : OperatorRequest := ⟨(P.session w).operatorId, w, a, key, ref⟩
  obtain ⟨tx, hid, hok⟩ : ∃ tx : WalletTxResult, tx.id = key ∧ (σ.operatorMove P 1 req).1 = .ok tx := by
    unfold State.operatorMove
    dsimp only
    split
    · split <;> exact ⟨_, rfl, rfl⟩
    · exact ⟨_, rfl, rfl⟩
  have hp : perform P i (.operatorWin req) σ = some (.ok tx, (σ.operatorMove P 1 req).2) := by rw [← hok]; rfl
  exact finishes_await_bind rfl (ends_catching (finishes_await hp
    ⟨⟨tx, rfl, hid⟩, (operatorMove_same 1 req).credits hnone, wins_operatorMove hon⟩))

lemma finishes_credit (ha : 0 < a) (hs : P.onLedger w → σ.Solvent w) :
    Finishes P i (fun r σ' => (∃ tx, r = .ok tx ∧ tx.id = key) ∧ Credits P σ σ' w a ty key ref ∧
      Wins P σ σ' w a key ref) (P.wallet.credit w a ty key ref) σ := by
  have hledger (hon : P.onLedger w) :
      Finishes P i (fun r σ' => (∃ tx, r = .ok tx ∧ tx.id = key) ∧ Credits P σ σ' w a ty key ref ∧
        Wins P σ σ' w a key ref) (LedgerService.credit w a ty key ref) σ :=
    (finishes_ledger_credit ha (hs hon) hon).mono fun r σ' h =>
      ⟨h.1, h.2.1, wins_of_onLedger hon h.2.2.1 h.2.2.2⟩
  cases hmode : P.operatorMode with
  | false =>
      have hwallet : P.wallet = ledgerService := by simp [Params.wallet, hmode]
      rw [hwallet]
      exact hledger (by simp [Params.onLedger, hmode])
  | true =>
      have hwallet : P.wallet = walletRouter ledgerService seamlessOperatorWallet := by simp [Params.wallet, hmode]
      rw [hwallet]
      refine finishes_await_bind rfl ?_
      split
      · exact hledger (by simp_all [Params.onLedger])
      · exact finishes_operator_credit (by simp_all [Params.onLedger])

/-- What the reversal of a debit makes of the operators: a wallet that is not on the ledger has the debit rolled
back. -/
structure Reverses (P : Params) (σ σ' : State) (w : ℕ) (b : ℕ) (reason : Intent) (k : Key) : Prop where
  beside : P.onLedger w → σ'.operator = σ.operator ∧ σ'.rollbacks = σ.rollbacks
  back : P.onLedger w = false → RolledBack σ σ' ⟨(P.session w).operatorId, b, reason⟩ k

namespace Reverses

variable {σ' : State} {b : ℕ} {reason : Intent} {k : Key}

lemma transactions (h : Reverses P σ σ' w b reason k) {o : ℕ} {k' : Key}
    (hne : ¬ (P.onLedger w = false ∧ o = (P.session w).operatorId ∧ k' = k)) : σ'.operator o k' = σ.operator o k' := by
  cases hon : P.onLedger w with
  | true => rw [(h.beside hon).1]
  | false => exact (h.back hon).transactions o k' fun heq => hne ⟨hon, heq⟩

lemma rows (h : Reverses P σ σ' w b reason k) {ref' : RollbackRef}
    (hne : ¬ (P.onLedger w = false ∧ ref' = ⟨(P.session w).operatorId, b, reason⟩)) :
    σ'.rollbacks.row ref' = σ.rollbacks.row ref' := by
  cases hon : P.onLedger w with
  | true => rw [(h.beside hon).2]
  | false => exact (h.back hon).rows ref' fun heq => hne ⟨hon, heq⟩

end Reverses

lemma finishes_reverse {p : ReverseParams} {reason : Intent} (hp : p.originalDirection = .debit)
    (hreason : p.intent = some reason) (ha : 0 < p.amount) (hs : P.onLedger w → σ.Solvent w) :
    Finishes P i (fun r σ' => r = .ok () ∧ Credits P σ σ' w p.amount p.type p.reverseKey p.refId ∧
      Reverses P σ σ' w p.refId reason p.originalKey) (P.wallet.reverse w p) σ := by
  have hledger (hon : P.onLedger w) :
      Finishes P i (fun r σ' => r = .ok () ∧ Credits P σ σ' w p.amount p.type p.reverseKey p.refId ∧
        Reverses P σ σ' w p.refId reason p.originalKey) (LedgerService.reverse w p) σ := by
    unfold LedgerService.reverse
    rw [hp]
    refine ends_bind ((finishes_ledger_credit ha (hs hon) hon).mono ?_)
    rintro r σ' ⟨⟨tx, rfl, -⟩, hc, hout⟩
    exact ends_ret ⟨rfl, hc, fun _ => hout, fun hoff => by simp [hon] at hoff⟩
  cases hmode : P.operatorMode with
  | false =>
      have hwallet : P.wallet = ledgerService := by simp [Params.wallet, hmode]
      rw [hwallet]
      exact hledger (by simp [Params.onLedger, hmode])
  | true =>
      have hwallet : P.wallet = walletRouter ledgerService seamlessOperatorWallet := by simp [Params.wallet, hmode]
      rw [hwallet]
      refine finishes_await_bind rfl ?_
      split
      · exact hledger (by simp_all [Params.onLedger])
      · have hon : P.onLedger w = false := by simp_all [Params.onLedger]
        refine finishes_await_bind rfl ((finishes_rollbackOnce _ _ _ _ true _).mono ?_)
        rintro r σ' ⟨rfl, hsame, hback⟩
        rw [hreason] at hback
        exact ⟨rfl, hsame.credits ⟨rfl, rfl, rfl, rfl, fun _ _ => rfl, fun _ => rfl, fun h => by simp [hon] at h,
          fun _ h => h⟩, fun h => by simp [hon] at h, fun _ => hback⟩

lemma finishes_rollback (k : Key) : Finishes P i (fun r σ' => r = .ok () ∧ SameBooks σ σ') (P.wallet.rollback w k ref) σ := by
  cases hmode : P.operatorMode with
  | false =>
      have hwallet : P.wallet = ledgerService := by simp [Params.wallet, hmode]
      rw [hwallet]
      exact ends_ret ⟨rfl, .refl σ⟩
  | true =>
      have hwallet : P.wallet = walletRouter ledgerService seamlessOperatorWallet := by simp [Params.wallet, hmode]
      rw [hwallet]
      refine finishes_await_bind rfl ?_
      split
      · exact ends_ret ⟨rfl, .refl σ⟩
      · exact finishes_await_bind rfl ((finishes_rollbackOnce _ _ _ _ false _).mono fun r σ' h => ⟨h.1, h.2.1⟩)

end Credit

end VaultRun.Game
