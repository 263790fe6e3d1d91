import VaultRun.Concurrency.Discipline
import VaultRun.Game.Outbox

/-!
The operator's wallet on its own: debits and credits with any number of retries, next to the drain of the owed
rollbacks, and what each of them knows at each statement.
-/

namespace VaultRun.Game

open VaultRun.Concurrency Program WalletRollbackService SeamlessOperatorWallet

/-- The arguments of `debit` and `credit`, with the retries that the wallet was built with. -/
structure Move where
  walletId : ℕ
  amount : ℤ
  key : Key
  refId : ℕ
  maxRetries : ℕ
  deriving DecidableEq

inductive WalletCall
  | debit (m : Move)
  | credit (m : Move)
  | drainPending (limit : ℕ)
  deriving DecidableEq

inductive WalletOutcome
  | moved (r : WalletTxResult)
  | drained (confirmed : ℕ)

def Move.debit (m : Move) : Program game WalletTxResult := do
  let s ← await (.resolveSession m.walletId)
  moveBet s ⟨s.operatorId, m.walletId, m.amount, m.key, m.refId⟩ m.maxRetries

def Move.credit (m : Move) : Program game WalletTxResult := do
  let s ← await (.resolveSession m.walletId)
  moveWin ⟨s.operatorId, m.walletId, m.amount, m.key, m.refId⟩ m.maxRetries

lemma debit_default (w : ℕ) (amount : ℤ) (type : LedgerType) (key : Key) (refId : ℕ) :
    SeamlessOperatorWallet.debit w amount type key refId = Move.debit ⟨w, amount, key, refId, maxRetries⟩ := rfl

def WalletCall.prog : WalletCall → Program game WalletOutcome
  | debit m => WalletOutcome.moved <$> m.debit
  | credit m => WalletOutcome.moved <$> m.credit
  | drainPending limit => WalletOutcome.drained <$> WalletRollbackService.drainPending true limit

inductive WalletEvent
  | tick (ms : ℕ)
  | call (c : WalletCall)

def walletSystem (P : Params) : Machine game WalletOutcome State WalletEvent Oracle where
  exec := exec P
  env e _ σ :=
    match e with
    | .tick ms => some ({ σ with now := σ.now + ms }, none)
    | .call c => some (σ, some c.prog)
  abort := State.abort

abbrev WalletConfig := Config game WalletOutcome State WalletEvent

abbrev WalletWorld := World game State WalletEvent

abbrev WalletEntry := Entry game State WalletEvent

/-- What a call has learnt: the answers to its charges, the row it has claimed and whether that row is there, the
rollback that was acknowledged last, and the rows that the drain has found. -/
structure MoveMemory where
  answers : List (Except Err WalletTxResult) := []
  claimed : Option RollbackRef := none
  present : Bool := false
  acked : Option Key := none
  owed : List (RollbackRef × WalletRollback) := []
  failed : Bool := false

namespace MoveMemory

def learn (m : MoveMemory) : (s : Stmt) → game.Reply s → MoveMemory
  | .operatorBet _, r => { m with answers := r :: m.answers }
  | .findRollback ref, .ok row =>
      { m with claimed := some ref, present := row.isSome || (m.present && m.claimed = some ref) }
  | .findRollback ref, .error _ => { m with claimed := some ref, present := false, failed := true }
  | .createRollback _ _, .ok _ => { m with present := true }
  | .createRollback _ _, .error e =>
      if e = .p2002 then { m with present := true } else { m with failed := true }
  | .dateNow, .error _ => { m with failed := true }
  | .operatorRollback _ k _, .ok _ => { m with acked := some k }
  | .findOwedRollbacks _ _, .ok rows => { m with owed := rows }
  | _, _ => m

variable (m : MoveMemory)

/-- The charge may have been applied, but there is no result. -/
@[reducible] def leavesOpen : Except Err WalletTxResult → Bool
  | .error e => e ≠ .insufficientFunds
  | .ok _ => false

@[reducible] def Ambiguous : Prop := ∃ r ∈ m.answers, leavesOpen r

def Refused : Prop := m.answers.head? = some (.error .insufficientFunds)

def Due : WalletCall → Stmt → Prop
  | .debit mv, s =>
      match s with
      | .resolveSession _ | .dateNow => True
      | .operatorBet req => req.transactionId = mv.key ∧ req.amount = mv.amount ∧ m.claimed = none
      | .findRollback ref => ref.betId = mv.refId ∧ ¬ m.Refused
      | .createRollback ref row => ref.betId = mv.refId ∧ row.transactionId = mv.key ∧
          m.claimed = some ref ∧ s.OnOutbox
      | .updateRollback ref _ => ref.betId = mv.refId ∧ s.OnOutbox
      | .updateRollbacks w d => w.ref.betId = mv.refId ∧ s.OnOutbox ∧
          (d.status = some .confirmed → m.acked = some mv.key)
      | .operatorRollback _ k _ => k = mv.key
      | _ => False
  | .credit mv, s =>
      match s with
      | .resolveSession _ => True
      | .operatorWin req => req.transactionId = mv.key ∧ req.amount = mv.amount
      | _ => False
  | .drainPending _, s =>
      match s with
      | .dateNow | .findOwedRollbacks _ _ | .operatorRollback _ _ _ => True
      | .updateRollback _ _ => s.OnOutbox
      | .updateRollbacks w d => s.OnOutbox ∧
          (d.status = some .confirmed → ∃ row, (w.ref, row) ∈ m.owed ∧ m.acked = some row.transactionId)
      | _ => False

end MoveMemory

abbrev Moves {α : Type} (c : WalletCall) (Q : Except Err α → MoveMemory → Prop) (p : Program game α)
    (m : MoveMemory) : Prop :=
  Follows MoveMemory.learn (fun m => MoveMemory.Due m c) Q p m

section Debit

variable {mv : Move} {m m' : MoveMemory} {ref : RollbackRef} {key : Key}

structure Claims (ref : RollbackRef) (m m' : MoveMemory) : Prop where
  answers : m'.answers = m.answers
  claimed : m'.claimed = some ref
  present : m'.failed = false → m'.present

lemma Claims.fail (h : Claims ref m m') : Claims ref m { m' with failed := true } :=
  ⟨h.answers, h.claimed, nofun⟩

lemma claims_find {r : game.Reply (.findRollback ref)} (h : Claims ref m m') :
    Claims ref m (m'.learn (.findRollback ref) r) := by
  cases r with
  | error e => exact ⟨h.answers, rfl, nofun⟩
  | ok row => exact ⟨h.answers, rfl, fun hf => by simp [MoveMemory.learn, h.claimed, h.present hf]⟩

abbrev Claiming (ref : RollbackRef) (m : MoveMemory) {α : Type} (r : Except Err α) (m' : MoveMemory) : Prop :=
  (∃ a, r = .ok a) ∧ Claims ref m m'

lemma moves_bump (hr : ref.betId = mv.refId) (h : Claims ref m m') :
    Moves (.debit mv) (Claiming ref m) (bumpAttempts ref) m' := by
  refine follows_catching (follows_await (I := game) (s := .updateRollback ref _) ⟨hr, fun _ => .bump ref⟩ fun r => ?_)
  cases r with
  | ok a => exact ⟨⟨_, rfl⟩, h⟩
  | error e => exact ⟨⟨_, rfl⟩, h⟩

lemma moves_lostTo (hr : ref.betId = mv.refId) (hm : ¬ m.Refused) (h : Claims ref m m')
    {f : Option WalletRollback → Program game Claimed}
    (hf : ∀ row m', Claims ref m m' → Moves (.debit mv) (Claiming ref m) (f row) m') :
    Moves (.debit mv) (fun r m' => match r with
      | .ok _ => Claiming ref m r m'
      | .error _ => Claims ref m m') (await (.findRollback ref) >>= f) m' := by
  have hm' : ¬ m'.Refused := by
    unfold MoveMemory.Refused
    rw [h.answers]
    exact hm
  refine follows_await_bind ⟨hr, hm'⟩ (fun row => ?_) fun e => claims_find (r := .error e) h
  exact (hf row _ (claims_find (r := .ok row) h)).mono fun r m'' hr => by
    obtain ⟨⟨a, rfl⟩, hc⟩ := hr
    exact ⟨⟨a, rfl⟩, hc⟩

lemma moves_claim (hr : ref.betId = mv.refId) (hm : ¬ m.Refused) {amount : Option ℤ} :
    Moves (.debit mv) (Claiming ref m) (claim ref mv.key amount) m := by
  -- whatever throws is caught, once the row has been looked up
  refine follows_catching (Follows.mono (Q := fun r m' => match r with
    | .ok _ => Claiming ref m r m'
    | .error _ => Claims ref m m') ?_ fun r m' h => ?_)
  · refine follows_await_bind ⟨hr, hm⟩ (fun row => ?_) fun e => ⟨rfl, rfl, nofun⟩
    match row with
    | some x =>
        have hfound : Claims ref m (m.learn (.findRollback ref) (.ok (some x))) := ⟨rfl, rfl, fun _ => rfl⟩
        dsimp only
        split_ifs with hconfirmed
        · exact ⟨⟨_, rfl⟩, hfound⟩
        · refine follows_await_bind trivial (fun now => ?_) fun e => hfound.fail
          split_ifs with hlive
          · refine follows_bind ((moves_bump hr hfound).mono fun r m' h => ?_)
            obtain ⟨⟨a, rfl⟩, hc⟩ := h
            exact ⟨⟨_, rfl⟩, hc⟩
          · refine follows_bind (follows_await_bind trivial (fun now => ?_) fun e => hfound.fail)
            refine follows_await_bind ⟨hr, fun _ => .lease ref _ _, nofun⟩ (fun n => ?_) fun e => hfound
            by_cases hn : n = 1
            · rw [decide_eq_true hn]
              exact ⟨⟨_, rfl⟩, hfound⟩
            · rw [decide_eq_false hn]
              refine moves_lostTo hr hm hfound fun row m' h => ?_
              refine follows_bind ((moves_bump hr h).mono fun r m'' h => ?_)
              obtain ⟨⟨a, rfl⟩, hc⟩ := h
              exact ⟨⟨_, rfl⟩, hc⟩
    | none =>
        refine follows_await_bind trivial (fun now => ?_) fun e => ⟨rfl, rfl, nofun⟩
        refine follows_catching (follows_await_bind ⟨hr, rfl, rfl, fun _ => .insert ref _ _ _⟩ (fun _ => ?_) fun e => ?_)
        · exact ⟨⟨_, rfl⟩, rfl, rfl, fun _ => rfl⟩
        · by_cases he : e = .p2002
          · subst he
            dsimp only
            rw [if_pos rfl]
            have hfound : Claims ref m ((m.learn (.findRollback ref) (.ok none)).learn
                (.createRollback ref ⟨mv.key, amount, .draining, 0, some (now + drainLeaseMs)⟩) (.error .p2002)) :=
              ⟨rfl, rfl, fun _ => rfl⟩
            refine moves_lostTo hr hm hfound fun row m' h => ?_
            exact ⟨⟨_, rfl⟩, h⟩
          · dsimp only
            rw [if_neg he]
            exact ⟨by simp [MoveMemory.learn, he], by simp [MoveMemory.learn, he], by simp [MoveMemory.learn, he]⟩
  · match r with
    | .ok a => exact h
    | .error e => exact ⟨⟨_, rfl⟩, h⟩

lemma moves_rollbackOnce {s : OperatorSession} {reason : Intent} (hm : ¬ m.Refused) {amount : Option ℤ} :
    Moves (.debit mv) (fun r m' => (∃ a, r = .ok a) ∧ ∃ ref, Claims ref m m')
      (rollbackOnce s mv.key mv.refId reason false amount) m := by
  have hclaim : Moves (.debit mv) (Claiming ⟨s.operatorId, mv.refId, reason⟩ m)
      (claim ⟨s.operatorId, mv.refId, reason⟩ mv.key amount) m := moves_claim rfl hm
  refine follows_bind (hclaim.mono fun r m₁ h => ?_)
  obtain ⟨⟨claimed, rfl⟩, hc⟩ := h
  have hdone : Claims ⟨s.operatorId, mv.refId, reason⟩ m { m₁ with acked := some mv.key } :=
    ⟨hc.answers, hc.claimed, hc.present⟩
  dsimp only
  by_cases hskip : claimed.alreadyConfirmed || claimed.inFlight
  · rw [if_pos hskip]
    exact ⟨⟨_, rfl⟩, _, hc⟩
  · rw [if_neg hskip]
    refine follows_catching (follows_await_bind rfl (fun _ => ?_) fun e => ?_)
    · refine follows_catching (follows_await_bind ⟨rfl, fun _ => .confirm _, fun _ => rfl⟩ (fun n => ?_) fun e => ?_)
      · exact ⟨⟨_, rfl⟩, _, hdone⟩
      · exact ⟨⟨_, rfl⟩, _, hdone⟩
    · refine follows_bind (follows_catching (follows_await_bind ⟨rfl, fun _ => .release _, nofun⟩ (fun n => ?_) fun e => ?_))
      · exact ⟨⟨_, rfl⟩, _, hc⟩
      · exact ⟨⟨_, rfl⟩, _, hc⟩

/-- How a debit ends that throws: with its claim, unless the latest charge was refused. -/
structure Fails (m : MoveMemory) : Prop where
  claimed : m.failed = false → m.Ambiguous → ¬ m.Refused → m.claimed.isSome ∧ m.present
  refused : m.Refused → m.claimed = none

lemma moves_moveBet {s : OperatorSession} (n : ℕ) (hanswers : n = 0 → m.answers = []) (hclaimed : m.claimed = none)
    (hm : ¬ m.Refused) :
    Moves (.debit mv) (fun r m' => ∀ e, r = .error e → Fails m')
      (moveBet s ⟨s.operatorId, mv.walletId, mv.amount, mv.key, mv.refId⟩ n) m := by
  induction n generalizing m with
  | zero =>
      rintro _ -
      refine ⟨fun _ ha => ?_, fun hr => absurd hr hm⟩
      obtain ⟨r, hr, -⟩ := ha
      rw [hanswers rfl] at hr
      cases hr
  | succ n ih =>
      refine follows_catching (follows_await (I := game) (s := .operatorBet _) ⟨rfl, rfl, hclaimed⟩ fun r => ?_)
      match r with
      | .ok a => exact fun e he => by cases he
      | .error e =>
          have hlatest (he : e ≠ .insufficientFunds) :
              ¬ (m.learn (.operatorBet ⟨s.operatorId, mv.walletId, mv.amount, mv.key, mv.refId⟩) (.error e)).Refused := by
            simpa [MoveMemory.Refused, MoveMemory.learn] using he
          have hrollback (reason : Intent) (thrown : Err) (he : e ≠ .insufficientFunds) :
              Moves (.debit mv) (fun r m' => ∀ e, r = .error e → Fails m')
                (do
                  safeRollback s mv.key mv.refId reason
                  raise thrown : Program game WalletTxResult)
                (m.learn (.operatorBet ⟨s.operatorId, mv.walletId, mv.amount, mv.key, mv.refId⟩) (.error e)) := by
            refine follows_bind ((moves_rollbackOnce (hlatest he)).mono fun r m₁ h => ?_)
            obtain ⟨⟨a, rfl⟩, ref, hc⟩ := h
            rintro _ -
            refine ⟨fun hf _ _ => ⟨by simp [hc.claimed], hc.present hf⟩, fun hr => absurd hr ?_⟩
            unfold MoveMemory.Refused
            rw [hc.answers]
            exact hlatest he
          dsimp only
          split_ifs with hfunds htimeout hlast
          · rintro _ -
            subst hfunds
            exact ⟨fun _ _ hno => absurd rfl hno, fun _ => hclaimed⟩
          · exact hrollback _ _ hfunds
          · exact hrollback _ _ hfunds
          · exact ih (fun h => absurd h hlast) hclaimed (hlatest hfunds)

end Debit

section Calls

variable {mv : Move} {m : MoveMemory}

lemma moves_debit : Moves (.debit mv) (fun r m' => ∀ e, r = .error e → Fails m') mv.debit {} := by
  have hfresh : ¬ MoveMemory.Refused {} := by simp [MoveMemory.Refused]
  have hnone : ¬ MoveMemory.Ambiguous {} := by simp [MoveMemory.Ambiguous]
  refine follows_await_bind trivial (fun s => moves_moveBet _ (fun _ => rfl) rfl hfresh) fun e _ _ => ?_
  exact ⟨fun _ ha => absurd ha hnone, fun hr => absurd hr hfresh⟩

lemma moves_moveWin {s : OperatorSession} (n : ℕ) :
    Moves (.credit mv) (fun _ _ => True) (moveWin ⟨s.operatorId, mv.walletId, mv.amount, mv.key, mv.refId⟩ n) m := by
  induction n generalizing m with
  | zero => trivial
  | succ n ih =>
      refine follows_catching (follows_await (I := game) (s := .operatorWin _) ⟨rfl, rfl⟩ fun r => ?_)
      match r with
      | .ok a => trivial
      | .error e =>
          dsimp only
          split_ifs
          · trivial
          · exact ih

lemma moves_credit : Moves (.credit mv) (fun _ _ => True) mv.credit m :=
  follows_await_bind trivial (fun _ => moves_moveWin _) fun _ => trivial

lemma moves_drainOne {l : List (RollbackRef × WalletRollback)} {x : RollbackRef × WalletRollback} {n limit : ℕ}
    (hx : x ∈ l) (hm : m.owed = l) :
    Moves (.drainPending limit) (fun _ m' => m'.owed = l) (drainOne n x) m := by
  have hacquire {m : MoveMemory} (hm : m.owed = l) :
      Moves (.drainPending limit) (fun r m' => (∃ b, r = .ok b) ∧ m'.owed = l)
        ((acquireLease x.1 x.2).catching fun _ => pure false) m := by
    refine follows_catching (follows_await_bind trivial (fun now => ?_) fun e => ⟨⟨_, rfl⟩, hm⟩)
    exact follows_await_bind ⟨fun _ => .lease _ _ _, nofun⟩ (fun n => ⟨⟨_, rfl⟩, hm⟩) fun e => ⟨⟨_, rfl⟩, hm⟩
  refine follows_bind ((hacquire hm).mono fun r m₁ h => ?_)
  obtain ⟨⟨acquired, rfl⟩, hm₁⟩ := h
  cases acquired with
  | false => exact hm₁
  | true =>
      refine follows_catching (follows_await_bind trivial (fun _ => ?_) fun e => ?_)
      · have hconfirm : Moves (.drainPending limit) (fun r m' => (∃ b, r = .ok b) ∧ m'.owed = l) (confirm x.1)
            (m₁.learn (.operatorRollback x.1.operatorId x.2.transactionId x.1.betId) (.ok ())) := by
          refine follows_catching (follows_await_bind ⟨fun _ => .confirm _, fun _ => ⟨x.2, ?_, rfl⟩⟩ (fun n => ?_) fun e => ?_)
          · exact hm₁ ▸ hx
          · exact ⟨⟨_, rfl⟩, hm₁⟩
          · exact ⟨⟨_, rfl⟩, hm₁⟩
        refine follows_bind (hconfirm.mono fun r m₂ h => ?_)
        obtain ⟨⟨_, rfl⟩, hm₂⟩ := h
        exact hm₂
      · refine follows_bind (follows_catching (follows_await (I := game)
          (s := .updateRollback x.1 _) (fun _ => .fail _ _) fun r => ?_))
        cases r with
        | ok a => exact hm₁
        | error e => exact hm₁

lemma moves_drainPending {limit : ℕ} :
    Moves (.drainPending limit) (fun _ _ => True) (WalletRollbackService.drainPending true limit) m := by
  have hfound : Moves (.drainPending limit) (fun r m' => ∃ l, r = .ok l ∧ (l ≠ [] → m'.owed = l))
      (catching (do
          let now ← await .dateNow
          await (.findOwedRollbacks now limit))
        fun _ => pure [] : Program game (List (RollbackRef × WalletRollback))) m := by
    refine follows_catching (follows_await_bind trivial (fun now => ?_) fun e => ⟨[], rfl, fun h => absurd rfl h⟩)
    refine follows_await (I := game) (s := .findOwedRollbacks now limit) trivial fun r => ?_
    cases r with
    | ok l => exact ⟨l, rfl, fun _ => rfl⟩
    | error e => exact ⟨[], rfl, fun h => absurd rfl h⟩
  refine follows_bind (hfound.mono fun r m' h => ?_)
  obtain ⟨l, rfl, hl⟩ := h
  cases l with
  | nil => trivial
  | cons x xs =>
      refine follows_loop (J := fun m' => m'.owed = x :: xs) (fun y hy acc m'' hm => ?_) (fun _ _ _ => trivial)
        (hl (by simp))
      refine (moves_drainOne hy hm).mono fun r m₃ h => ?_
      cases r with
      | ok a => exact h
      | error e => trivial

def WalletCall.Failed : WalletCall → MoveMemory → Prop
  | .debit _, m => Fails m
  | _, _ => True

theorem moves_prog (c : WalletCall) : Moves c (fun r m' => ∀ e, r = .error e → c.Failed m') c.prog {} := by
  cases c with
  | debit mv =>
      refine follows_map (moves_debit.mono fun r m' h e he => ?_)
      match r, he with
      | .error e', he => exact h e' rfl
  | credit mv => exact follows_map (moves_credit.mono fun _ _ _ _ _ => trivial)
  | drainPending limit => exact follows_map (moves_drainPending.mono fun _ _ _ _ _ => trivial)

end Calls

end VaultRun.Game
