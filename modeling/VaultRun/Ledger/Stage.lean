import VaultRun.Ledger.Service

/-!
How far a call of the ledger has come in its transaction, and where it may issue which statement.
-/

namespace VaultRun.Ledger

open VaultRun.Concurrency Program

/-- `posted` is for good: a call that has committed a row issues nothing more. -/
inductive Stage
  | idle
  | begun
  | locked (walletId : ℕ)
  | read (walletId : ℕ) (balance : ℤ)
  | updated (walletId : ℕ) (balance balanceAfter : ℤ)
  | created (row : Row)
  | posted

namespace Stage

def learn : Stage → (s : Stmt) → ledger.Reply s → Stage
  | .posted, _, _ => .posted
  | .idle, .begin, .ok _ => .begun
  | .begun, .lockWallet id, .ok _ => .locked id
  | .locked id, .findWallet _, .ok balance => .read id balance
  | .read id balance, .updateWallet _ balanceAfter, .ok _ => .updated id balance balanceAfter
  | .updated _ _ _, .createRow row, .ok _ => .created row
  | .created _, .commit, .ok _ => .posted
  | _, .commit, .ok _ => .idle
  | _, .rollback, .ok _ => .idle
  | m, _, _ => m

def Due (m : Stage) : Stmt → Prop
  | .findUnique _ => True
  | .begin => m = .idle
  | .lockWallet _ => m = .begun
  | .findWallet id => m = .locked id
  | .updateWallet id balanceAfter => 0 ≤ balanceAfter ∧ ∃ balance, m = .read id balance
  | .createRow row => ∃ balance, m = .updated row.walletId balance row.balanceAfter ∧
      row.balanceAfter = balance + row.amount
  | .commit => m ≠ .posted ∧ ∀ id b b', m ≠ .updated id b b'
  | .rollback => m ≠ .posted

end Stage

abbrev Heeds {α : Type} (Q : Except Err α → Stage → Prop) (p : Program ledger α) (m : Stage) : Prop :=
  Follows Stage.learn Stage.Due Q p m

section Heeds

variable {α : Type} {m : Stage}

def Ends (r : Except Err α) (m : Stage) : Prop := ∀ e, r = .error e → m ≠ .posted

def Readies (r : Except Err α) (m : Stage) : Prop :=
  m ≠ .posted ∧ ∀ a, r = .ok a → ∀ id b b', m ≠ .updated id b b'

lemma readies_error {e : Err} (h : m ≠ .posted) : Readies (.error e : Except Err α) m :=
  ⟨h, fun a ha => by cases ha⟩

lemma heeds_transaction {body : Program ledger α} (h : Heeds Readies body .begun) :
    Heeds Ends (transaction body) .idle := by
  have hrollback (m : Stage) (hm : m ≠ .posted) (e : Err) : Heeds (α := α) Ends
      (do
        let _ ← (await .rollback).attempt
        raise e) m := by
    refine follows_bind (follows_attempt (follows_await (I := ledger) (s := .rollback) hm fun r => ?_))
    intro e' _
    cases r <;> cases m <;> simp_all [Stage.learn]
  refine follows_await_bind rfl (fun _ => follows_catching ?_) fun e e' _ => by simp [Stage.learn]
  refine follows_bind (h.mono fun r m hr => ?_)
  match r with
  | .error e => exact hrollback m hr.1 e
  | .ok a =>
      refine follows_await_bind ⟨hr.1, hr.2 a rfl⟩ (fun _ => ?_) fun e => ?_
      · exact fun e he => by cases he
      · exact hrollback _ (by have := hr.1; cases m <;> simp_all [Stage.learn]) e

lemma heeds_once {walletId : ℕ} {key : String} {found : Row → α} {post : Program ledger α}
    (hpost : Heeds Readies post (.locked walletId)) :
    Heeds Ends (LedgerService.once walletId key found post) .idle := by
  refine follows_await_bind trivial (fun r => ?_) fun e e' _ => by simp [Stage.learn]
  match r with
  | some existing => exact fun e he => by cases he
  | none =>
      refine follows_catching ((heeds_transaction ?_).mono fun r m hr => ?_)
      · refine follows_await_bind rfl (fun _ => ?_) fun e => readies_error (by simp [Stage.learn])
        refine follows_await_bind trivial (fun r => ?_) fun e => readies_error (by simp [Stage.learn])
        match r with
        | some dup => exact ⟨by simp [Stage.learn], fun _ _ => by simp [Stage.learn]⟩
        | none => exact hpost
      · match r with
        | .ok a => exact fun e he => by cases he
        | .error e =>
            have hm : m ≠ .posted := hr e rfl
            dsimp only
            split_ifs
            · refine follows_await_bind trivial (fun r => ?_) fun e' e'' _ => ?_
              · match r with
                | some row => exact fun e he => by cases he
                | none => exact fun _ _ => by cases m <;> simp_all [Stage.learn]
              · cases m <;> simp_all [Stage.learn]
            · exact fun _ _ => hm

lemma heeds_record {walletId : ℕ} {signedAmount : ℤ} {type : LedgerType} {key : String} {ref : Option LedgerRef} :
    Heeds Ends (LedgerService.record walletId signedAmount type key ref) .idle := by
  refine heeds_once (follows_await_bind rfl (fun balance => ?_) fun e => readies_error (by simp [Stage.learn]))
  dsimp only
  split_ifs with hneg
  · exact readies_error (by simp [Stage.learn])
  · refine follows_await_bind ⟨Int.not_lt.1 hneg, balance, rfl⟩ (fun _ => ?_) fun e => readies_error (by simp [Stage.learn])
    refine follows_await (I := ledger) (s := .createRow _) ⟨balance, rfl, rfl⟩ fun r => ?_
    cases r with
    | error e => exact readies_error (by simp [Stage.learn])
    | ok row => exact ⟨by simp [Stage.learn], fun _ _ => by simp [Stage.learn]⟩

lemma heeds_resetTo {walletId : ℕ} {target : ℤ} {key : String} {ref : Option LedgerRef} :
    Heeds Ends (LedgerService.resetTo walletId target key ref) .idle := by
  unfold LedgerService.resetTo
  split_ifs with hneg
  · exact fun _ _ => nofun
  refine heeds_once (follows_await_bind rfl (fun balance => ?_) fun e => readies_error (by simp [Stage.learn]))
  dsimp only
  split_ifs with hzero
  · exact ⟨by simp [Stage.learn], fun _ _ => by simp [Stage.learn]⟩
  · refine follows_await_bind ⟨by omega, balance, rfl⟩ (fun _ => ?_) fun e => readies_error (by simp [Stage.learn])
    refine follows_await_bind ⟨balance, rfl, by simp⟩ (fun row => ?_) fun e => readies_error (by simp [Stage.learn])
    exact ⟨by simp [Stage.learn], fun _ _ => by simp [Stage.learn]⟩

lemma heeds_debit {walletId : ℕ} {amount : ℤ} {type : LedgerType} {key : String} {ref : Option LedgerRef} :
    Heeds Ends (LedgerService.debit walletId amount type key ref) .idle := by
  unfold LedgerService.debit
  split_ifs
  · exact fun _ _ => nofun
  · exact heeds_record

lemma heeds_credit {walletId : ℕ} {amount : ℤ} {type : LedgerType} {key : String} {ref : Option LedgerRef} :
    Heeds Ends (LedgerService.credit walletId amount type key ref) .idle := by
  unfold LedgerService.credit
  split_ifs
  · exact fun _ _ => nofun
  · exact heeds_record

theorem heeds_prog (c : Call) : Heeds Ends c.prog .idle := by
  have hmap {β γ : Type} {p : Program ledger β} {g : β → γ} (h : Heeds Ends p .idle) : Heeds Ends (g <$> p) .idle := by
    refine follows_map (h.mono fun r m hr e he => ?_)
    cases r with
    | ok a => cases he
    | error e' => exact hr e' rfl
  cases c with
  | debit => exact hmap heeds_debit
  | credit => exact hmap heeds_credit
  | resetTo => exact hmap heeds_resetTo
  | reverse w p =>
      refine hmap ?_
      unfold LedgerService.reverse
      cases p.originalDirection with
      | debit => exact hmap heeds_credit
      | credit => exact hmap heeds_debit

end Heeds

end VaultRun.Ledger
