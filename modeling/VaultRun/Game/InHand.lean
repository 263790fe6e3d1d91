import VaultRun.Concurrency.Discipline
import VaultRun.Game.Lifecycle

/-!
The bet a call of a player has in hand, what it has still to do for it, and what it posts to the ledger on its
behalf.
-/

namespace VaultRun.Game

open VaultRun.Concurrency VaultRun.Data Program BetsService

/-- What a call has in hand: a bet it has inserted, until it is activated or given up, or a bet it has claimed,
until the claim has been paid for. -/
inductive Task
  | idle
  | reserved (b : ℕ) (d : NewBet)
  | debited (b : ℕ) (d : NewBet)
  | flipping (b : ℕ)
  | refunding (b : ℕ) (bet : Bet)
  | paying (b : ℕ) (bet : Bet) (payout : ℤ)

def Task.placing : Task → Option ℕ
  | reserved b _ | debited b _ | flipping b => some b
  | _ => none

structure Hand where
  found : Option (ℕ × Bet) := none
  task : Task := .idle
  failed : Bool := false

namespace Hand

variable (m : Hand)

def claim (b : ℕ) (t : Bet → Task) : Hand :=
  match m.found with
  | some (b', bet) => if b' = b then { m with task := t bet } else m
  | none => m

def swapped (w : BetWhere) (d : BetData) : Except Err ℕ → Hand
  | .ok n =>
      match w.id, d.status, d.payout with
      | some _, some .active, _ | some _, none, _ => { m with task := .idle }
      | some b, some .cancelled, _ => if n = 0 then m else m.claim b (.refunding b)
      | some b, some .cashedOut, some p => if n = 0 then m else m.claim b (.paying b · p)
      | _, _, _ => m
  | .error _ =>
      match w.id, d.status with
      | some b, some .active => { m with task := .flipping b, failed := true }
      | some _, none => { m with task := .idle, failed := true }
      | _, _ => { m with failed := true }

def posted (k : Key) : Except Err WalletTxResult → Hand
  | .ok _ =>
      match k, m.task with
      | .debit _, .reserved b d => { m with task := .debited b d }
      | .debit _, _ => m
      | _, _ => { m with task := .idle }
  | .error _ =>
      match k with
      | .debit _ => m
      | _ => { m with failed := true }

def learn : (s : Stmt) → game.Reply s → Hand
  | .findSlot _, .ok x => { m with found := x }
  | .createBet d, .ok b => { m with task := .reserved b d }
  | .deleteBet _, .ok _ => { m with task := .idle }
  | .deleteBet _, .error _ => { m with task := .idle, failed := true }
  | .updateBets w d, r => m.swapped w d r
  | .updateBet _ d, .ok _ => if d.status = some .payoutPending then { m with task := .idle } else m
  | .updateBet _ d, .error _ => if d.status = some .payoutPending then { m with failed := true } else m
  | .recordLedger _ _ _ k _, r => m.posted k r
  | _, _ => m

def parts : List Part := [.placeBet, .cancelBet, .cashOut, .payWin, .settleRound]

end Hand

section Writes

variable (b : ℕ)

abbrev Stmt.activate (tx : Key) : Stmt :=
  .updateBets { id := some b, status := some [.reserving] } { status := some .active, debitTxId := some tx }

abbrev Stmt.stampDebit (tx : Key) : Stmt :=
  .updateBets { id := some b, status := some [.reserving] } { debitTxId := some tx }

end Writes

def Hand.Clean (m : Hand) : Prop :=
  m.task = .idle ∨ m.failed = true ∨ ∃ b bet, m.task = .refunding b bet ∧ bet.amount ≤ 0

/-- The call may claim bet `b`: it has found the bet, and has nothing else to do. -/
def Hand.Claiming (P : Params) (m : Hand) (b : ℕ) : Prop :=
  (∃ bet, m.found = some (b, bet)) ∧ (P.operatorMode = false → m.Clean)

structure Hand.Due (P : Params) (m : Hand) (s : Stmt) : Prop where
  writes : s.writesBets → ∃ p ∈ Hand.parts, p.Writes s
  create : ∀ d, s = .createBet d → P.operatorMode = false → m.Clean
  cancel : ∀ b, s = .claimCancel b → m.Claiming P b
  cashOut : ∀ b mult p, s = .claimWin b mult p → m.Claiming P b
  forget : ∀ b, s = .deleteBet b → ∃ d, m.task = .reserved b d
  activate : ∀ b tx, s = .activate b tx →
    m.task.placing = some b ∧ (P.operatorMode = false → ∀ d, m.task ≠ .reserved b d)
  stamp : ∀ b tx, s = .stampDebit b tx → m.failed = true
  pending : ∀ b, s = .markPending b →
    ∃ bet p, m.task = .paying b bet p ∧ (P.operatorMode = false → p ≤ 0 ∨ m.failed)

/-- What a call of a player posts to the ledger: the debit of the bet it has reserved, the refund of one it has
cancelled, or the payout of one it has cashed out. -/
inductive Hand.Posting (m : Hand) : ℕ → ℤ → LedgerType → Key → ℕ → Prop
  | debit {b : ℕ} {d : NewBet} (ht : m.task = .reserved b d) (ha : 0 < d.amount) :
      Posting m d.walletId (-d.amount) .betDebit (.debit d.slot) b
  | refund {b : ℕ} {bet : Bet} (ht : m.task = .refunding b bet) (ha : 0 < bet.amount) :
      Posting m bet.walletId bet.amount .refund (.refund b) b
  | payout {b : ℕ} {bet : Bet} {p : ℤ} (ht : m.task = .paying b bet p) (hp : 0 < p) :
      Posting m bet.walletId p .payoutCredit (.payout b) b

def Hand.Posts (m : Hand) (s : Stmt) : Prop :=
  ∀ w a t k ref, s = .recordLedger w a t k ref → m.Posting w a t k ref

def Hand.Allows (P : Params) (m : Hand) (s : Stmt) : Prop := m.Due P s ∧ m.Posts s

/-- The discipline of a call of a player: it leaves nothing undone on the internal ledger. -/
abbrev Minds (P : Params) {α : Type} (p : Program game α) : Prop :=
  ∀ m : Hand, (P.operatorMode = false → m.Clean) →
    Follows Hand.learn (Hand.Allows P) (fun _ m => P.operatorMode = false → m.Clean) p m

section OffBooks

variable {P : Params} {m : Hand} {s : Stmt} {α : Type} {p : Program game α}

@[reducible] def Stmt.offBooks (s : Stmt) : Bool := !(s.writesBets || s.writesLedger)

lemma Stmt.offBooks_of_plain (hs : s.plain) : s.offBooks := by
  cases s <;> simp_all [Stmt.plain, Stmt.offBooks]

lemma Hand.allows_of_offBooks (hs : s.offBooks) : m.Allows P s := by
  have hwrites : s.writesBets = false := by
    by_contra hw
    simp [Stmt.offBooks, hw] at hs
  refine ⟨⟨fun hw => ?_, ?_, ?_, ?_, ?_, ?_, ?_, ?_⟩, ?_⟩
  · rw [hwrites] at hw
    cases hw
  · rintro d rfl
    cases hwrites
  · rintro b rfl
    cases hwrites
  · rintro b mult p rfl
    cases hwrites
  · rintro b rfl
    cases hwrites
  · rintro b tx rfl
    cases hwrites
  · rintro b tx rfl
    cases hwrites
  · rintro b rfl
    cases hwrites
  · rintro w a t k ref rfl
    cases hs

lemma Hand.learn_offBooks (hs : s.offBooks) (r : game.Reply s) :
    ∃ x, m.learn s r = { m with found := x } := by
  cases s with
  | findSlot slot =>
      cases r with
      | ok x => exact ⟨x, rfl⟩
      | error e => exact ⟨m.found, rfl⟩
  | createBet | updateBet | updateBets | deleteBet | recordLedger => cases hs
  | _ => exact ⟨m.found, rfl⟩

lemma minds_offBooks (hp : p.Uses fun s : Stmt => s.offBooks) : Minds P p := by
  intro m hm
  refine follows_of_uses_keeping hp (fun m s => Hand.allows_of_offBooks) (fun m s r hs hm => ?_) hm
  obtain ⟨x, hx⟩ := Hand.learn_offBooks (m := m) hs r
  rw [hx]
  exact hm

lemma minds_plain (hp : p.Uses fun s : Stmt => s.plain) : Minds P p :=
  minds_offBooks (hp.mono fun _ => Stmt.offBooks_of_plain)

lemma minds_compositional : Compositional fun (α : Type) (p : Program game α) => Minds P p :=
  follows_keeping_compositional

end OffBooks

section Wallet

open WalletRollbackService SeamlessOperatorWallet

variable {φ : Stmt → Prop} (hq : ∀ s : Stmt, s.offBooks → φ s)
include hq

attribute [local simp] Program.await Option.forall except_forall

lemma rollbackOnce_offBooks (s : OperatorSession) (k : Key) (b : ℕ) (reason : Intent) (propagate : Bool)
    (a : Option ℤ) : (rollbackOnce s k b reason propagate a).Uses φ := by
  simp [rollbackOnce, WalletRollbackService.claim, acquireLease, bumpAttempts, confirm, recordEmitFailure, hq]

lemma moveBet_offBooks (s : OperatorSession) (req : OperatorRequest) (n : ℕ) : (moveBet s req n).Uses φ := by
  induction n with
  | zero => trivial
  | succ n ih => simp [moveBet, safeRollback, rollbackOnce_offBooks hq, ih, hq]

lemma moveWin_offBooks (req : OperatorRequest) (n : ℕ) : (moveWin req n).Uses φ := by
  induction n with
  | zero => trivial
  | succ n ih => simp [moveWin, ih, hq]

lemma operator_debit_offBooks (w : ℕ) (a : ℤ) (t : LedgerType) (k : Key) (b : ℕ) :
    (SeamlessOperatorWallet.debit w a t k b).Uses φ := by
  simp [SeamlessOperatorWallet.debit, moveBet_offBooks hq, hq]

lemma operator_credit_offBooks (w : ℕ) (a : ℤ) (t : LedgerType) (k : Key) (b : ℕ) :
    (SeamlessOperatorWallet.credit w a t k b).Uses φ := by
  simp [SeamlessOperatorWallet.credit, moveWin_offBooks hq, hq]

end Wallet

section Payments

variable {P : Params} {m : Hand}

lemma follows_offBooks {α : Type} {p : Program game α} (hp : p.Uses fun s : Stmt => s.offBooks) :
    Follows Hand.learn (Hand.Allows P) (fun _ m' => m'.task = m.task ∧ m'.failed = m.failed) p m := by
  refine follows_of_uses_keeping hp (fun m s => Hand.allows_of_offBooks) (fun m₁ s r hs hm => ?_) ⟨rfl, rfl⟩
  obtain ⟨x, hx⟩ := Hand.learn_offBooks (m := m₁) hs r
  rw [hx]
  exact hm

lemma Hand.allows_posting {w : ℕ} {a : ℤ} {t : LedgerType} {k : Key} {ref : ℕ} (h : m.Posting w a t k ref) :
    m.Allows P (.recordLedger w a t k ref) := by
  refine ⟨⟨nofun, nofun, nofun, nofun, nofun, nofun, nofun, nofun⟩, ?_⟩
  rintro w' a' t' k' ref' hs
  obtain ⟨rfl, rfl, rfl, rfl, rfl⟩ := Stmt.recordLedger.inj hs
  exact h

/-- After a debit the bet is debited on the ledger, or at the operator, or it is still to be given up. -/
def AfterDebit (P : Params) (b : ℕ) (d : NewBet) : Except Err WalletTxResult → Hand → Prop
  | .ok _, m => m.task = .debited b d ∨ m.task = .reserved b d ∧ P.operatorMode = true
  | .error _, m => m.task = .reserved b d

/-- A credit on the ledger that returns ends the task, and one that throws has failed, or had nothing to pay. -/
def AfterCredit (P : Params) (t : Task) (a : ℤ) : Except Err WalletTxResult → Hand → Prop
  | .ok _, m => P.operatorMode = false → m.task = .idle
  | .error _, m => m.task = t ∧ (P.operatorMode = false → a ≤ 0 ∨ m.failed = true)

lemma follows_ledger_debit {b : ℕ} {d : NewBet} (ht : m.task = .reserved b d) :
    Follows Hand.learn (Hand.Allows P) (AfterDebit P b d)
      (LedgerService.debit d.walletId d.amount .betDebit (.debit d.slot) b) m := by
  unfold LedgerService.debit
  split
  · exact ht
  · rename_i hamount
    refine follows_await (I := game) (Hand.allows_posting (.debit ht (by omega))) fun r => ?_
    cases r with
    | ok tx => exact .inl (by simp [Hand.learn, Hand.posted, ht])
    | error e => exact ht

lemma follows_debit {b : ℕ} {d : NewBet} (ht : m.task = .reserved b d) :
    Follows Hand.learn (Hand.Allows P) (AfterDebit P b d)
      (P.wallet.debit d.walletId d.amount .betDebit (.debit d.slot) b) m := by
  by_cases hP : P.operatorMode
  · have hwallet : P.wallet = walletRouter ledgerService seamlessOperatorWallet := by simp [Params.wallet, hP]
    rw [hwallet]
    refine follows_await_bind (Hand.allows_of_offBooks rfl) (fun demo => ?_) fun _ => ht
    dsimp only
    split
    · exact follows_ledger_debit ht
    · refine (follows_offBooks (operator_debit_offBooks (fun _ hs => hs) _ _ .betDebit _ _)).mono fun r m' hm => ?_
      have htask : m'.task = .reserved b d := hm.1.trans ht
      cases r with
      | ok tx => exact .inr ⟨htask, hP⟩
      | error e => exact htask
  · have hwallet : P.wallet = ledgerService := by simp [Params.wallet, hP]
    rw [hwallet]
    exact follows_ledger_debit ht

section Credit

variable {w : ℕ} {a : ℤ} {t : LedgerType} {k : Key} {ref : ℕ}
  (hpost : 0 < a → m.Posting w a t k ref) (hk : ∀ slot, k ≠ .debit slot)
include hpost hk

lemma follows_ledger_credit :
    Follows Hand.learn (Hand.Allows P) (AfterCredit P m.task a) (LedgerService.credit w a t k ref) m := by
  unfold LedgerService.credit
  split
  · exact ⟨rfl, fun _ => .inl ‹_›⟩
  · refine follows_await (I := game) (Hand.allows_posting (hpost (by omega))) fun r => ?_
    cases r with
    | ok tx =>
        intro _
        cases k <;> simp_all [Hand.learn, Hand.posted]
    | error e =>
        refine ⟨?_, fun _ => .inr ?_⟩
        · cases k <;> simp_all [Hand.learn, Hand.posted]
        · cases k <;> simp_all [Hand.learn, Hand.posted]

lemma follows_credit :
    Follows Hand.learn (Hand.Allows P) (AfterCredit P m.task a) (P.wallet.credit w a t k ref) m := by
  by_cases hP : P.operatorMode
  · have hwallet : P.wallet = walletRouter ledgerService seamlessOperatorWallet := by simp [Params.wallet, hP]
    rw [hwallet]
    refine follows_await_bind (Hand.allows_of_offBooks rfl) (fun demo => ?_) fun _ => ⟨rfl, by simp [hP]⟩
    dsimp only
    split
    · exact follows_ledger_credit hpost hk
    · refine (follows_offBooks (operator_credit_offBooks (fun _ hs => hs) _ _ t _ _)).mono fun r m' hm => ?_
      cases r with
      | ok tx => simp [AfterCredit, hP]
      | error e => exact ⟨hm.1, by simp [hP]⟩
  · have hwallet : P.wallet = ledgerService := by simp [Params.wallet, hP]
    rw [hwallet]
    exact follows_ledger_credit hpost hk

end Credit

end Payments

section Bets

variable {P : Params} {m : Hand}

lemma Hand.allows_writes {s : Stmt} {p : Part} (hs : p.Writes s) (hp : p ∈ Hand.parts)
    (hforget : ∀ b, s = .deleteBet b → ∃ d, m.task = .reserved b d)
    (hactivate : ∀ b tx, s = .activate b tx →
      m.task.placing = some b ∧ (P.operatorMode = false → ∀ d, m.task ≠ .reserved b d))
    (hpending : ∀ b, s = .markPending b →
      ∃ bet p, m.task = .paying b bet p ∧ (P.operatorMode = false → p ≤ 0 ∨ m.failed))
    (hcreate : ∀ d, s = .createBet d → P.operatorMode = false → m.Clean)
    (hcancel : ∀ b, s = .claimCancel b → m.Claiming P b)
    (hcashOut : ∀ b mult p, s = .claimWin b mult p → m.Claiming P b)
    (hstamp : ∀ b tx, s = .stampDebit b tx → m.failed = true) : m.Allows P s := by
  refine ⟨⟨fun _ => ⟨p, hp, hs⟩, hcreate, hcancel, hcashOut, hforget, hactivate, hstamp, hpending⟩, ?_⟩
  rintro w a t k ref rfl
  cases hs

def Hand.Placing (P : Params) (b : ℕ) (m : Hand) : Prop :=
  m.task.placing = some b ∧ (P.operatorMode = false → ∀ d, m.task ≠ .reserved b d)

lemma Hand.Placing.allows {b : ℕ} (hm : m.Placing P b) (tx : Key) : m.Allows P (.activate b tx) := by
  refine Hand.allows_writes (.activate b tx) (by decide) nofun (fun b' tx' hs => ?_) nofun nofun nofun nofun nofun
  obtain ⟨hid, -⟩ := Stmt.updateBets.inj hs
  obtain rfl : b = b' := by simpa using hid
  exact hm

lemma follows_activate {b : ℕ} (hm : m.Placing P b) (tx : WalletTxResult) (ccy n : ℕ) :
    Follows Hand.learn (Hand.Allows P) (fun _ m => m.Clean) (activate b tx ccy (n + 1)) m := by
  induction n generalizing m with
  | zero =>
      refine follows_bind (follows_attempt (follows_await (I := game) (hm.allows tx.id) fun r => ?_))
      cases r with
      | ok count =>
          dsimp only
          split
          · exact .inl rfl
          · exact .inl rfl
      | error e =>
          refine follows_bind (follows_attempt (follows_await (I := game) ?_ fun r => ?_))
          · exact Hand.allows_writes (.stampDebit b tx.id) (by decide) nofun nofun nofun nofun nofun nofun
              fun _ _ _ => rfl
          · cases r with
            | ok count => exact .inl rfl
            | error e => exact .inl rfl
  | succ n ih =>
      refine follows_bind (follows_attempt (follows_await (I := game) (hm.allows tx.id) fun r => ?_))
      cases r with
      | ok count =>
          dsimp only
          split
          · exact .inl rfl
          · exact .inl rfl
      | error e => exact ih ⟨rfl, fun _ _ h => nomatch h⟩

lemma follows_debitAndActivate {b : ℕ} {d : NewBet} {w : ℕ × Wallet} (hw : d.walletId = w.1)
    (ht : m.task = .reserved b d) :
    Follows Hand.learn (Hand.Allows P) (fun _ m => P.operatorMode = false → m.Clean)
      (debitAndActivate P d.slot w d.amount b) m := by
  unfold debitAndActivate
  rw [← hw]
  refine follows_bind (follows_attempt ((follows_debit ht).mono fun r m' hr => ?_))
  cases r with
  | error e =>
      refine follows_bind (follows_attempt (follows_await (I := game) ?_ fun r => ?_))
      · refine Hand.allows_writes (.forget b) (by decide) (fun b' hs => ?_) nofun nofun nofun nofun nofun
          nofun
        obtain rfl := Stmt.deleteBet.inj hs
        exact ⟨d, hr⟩
      · cases r with
        | ok u => exact fun _ => .inl rfl
        | error e => exact fun _ => .inl rfl
  | ok tx =>
      refine (follows_activate ?_ tx w.2.currency 2).mono fun _ _ hm _ => hm
      rcases hr with hr | ⟨hr, hP⟩
      · exact ⟨by rw [hr]; rfl, fun _ d' h => by rw [hr] at h; cases h⟩
      · exact ⟨by rw [hr]; rfl, fun h => by rw [hP] at h; cases h⟩

lemma minds_await {s : Stmt} (hs : s.offBooks) : Minds P (await s) := minds_offBooks (await_uses hs)

attribute [local simp] Program.await Option.forall except_forall in
lemma sessionCaps_offBooks (a : PlaceBet) (w : ℕ) (amt : ℤ) (bets : List (ℕ × Bet)) :
    (sessionCaps a w amt bets).Uses fun s : Stmt => s.offBooks := by
  cases hr : rgOf a <;> simp [sessionCaps, hr, sessionAccounting]

lemma follows_reserve (a : PlaceBet) (slot : Slot) (w : ℕ × Wallet) (amt : ℤ)
    (hm : P.operatorMode = false → m.Clean) :
    Follows Hand.learn (Hand.Allows P) (fun r m => match r with
      | .ok b => ∃ d, m.task = .reserved b d ∧ d.slot = slot ∧ d.walletId = w.1 ∧ d.amount = amt
      | .error _ => P.operatorMode = false → m.Clean) (reserve P a slot w amt) m := by
  refine follows_await_bind (Hand.allows_of_offBooks rfl) (fun _ => ?_) fun _ => hm
  refine follows_catching (Follows.mono (Q := fun r m => match r with
      | .ok b => ∃ d, m.task = .reserved b d ∧ d.slot = slot ∧ d.walletId = w.1 ∧ d.amount = amt
      | .error _ => P.operatorMode = false → m.Clean) ?_ fun r m' hr => ?_)
  · refine follows_await_bind (Hand.allows_of_offBooks rfl) (fun bets => ?_) fun _ => hm
    dsimp only
    split
    · exact hm
    · refine follows_bind ((minds_offBooks (sessionCaps_offBooks a w.1 amt bets) _ hm).mono fun r m' hr => ?_)
      cases r with
      | error e => exact hr
      | ok u =>
          refine follows_await (I := game) ?_ fun r => ?_
          · exact Hand.allows_writes (.create _) (by decide) nofun nofun nofun (fun _ _ => hr) nofun nofun
              nofun
          · cases r with
            | ok b => exact ⟨_, rfl, rfl, rfl, rfl⟩
            | error e => exact hr
  · cases r with
    | ok b => exact hr
    | error e => exact follows_await_bind (Hand.allows_of_offBooks rfl) (fun _ => hr) fun _ => hr

lemma minds_placeBet (a : PlaceBet) : Minds P (placeBet P a) := by
  have hK : Compositional fun (α : Type) (p : Program game α) => Minds P p := minds_compositional
  have hrg : Minds P (rgGate a) := by
    cases hr : rgOf a with
    | none => exact minds_offBooks (by simp [rgGate, hr])
    | some x => cases hs : x.1.maxSessionSec <;> exact minds_offBooks (by simp [rgGate, hr, hs, Program.await])
  have hwallet : Minds P (wallet a.userId a.walletId) := by
    cases hw : a.walletId <;> exact minds_offBooks (by simp [wallet, Program.await])
  refine hK.bind (minds_await rfl) fun state => ?_
  split
  · exact hK.ret _
  dsimp only
  split
  · exact hK.ret _
  split
  · exact hK.ret _
  refine hK.bind hrg fun gate => ?_
  split
  · exact hK.ret _
  refine hK.bind (minds_await rfl) fun existing => ?_
  split
  · exact hK.ret _
  refine hK.bind (hK.attempt hwallet) fun found => ?_
  split
  · exact hK.ret _
  intro m hm
  refine follows_bind (follows_attempt ((follows_reserve a _ _ _ hm).mono fun r m' hr => ?_))
  cases r with
  | error e => exact hr
  | ok b =>
      obtain ⟨d, ht, hslot, hw, hamount⟩ := hr
      have hdebit := follows_debitAndActivate (P := P) hw ht
      rw [hslot, hamount] at hdebit
      exact hdebit

lemma follows_claimRefund {b : ℕ} {bet : Bet} (hm : P.operatorMode = false → m.Clean)
    (hf : m.found = some (b, bet)) (ccy : ℕ) :
    Follows Hand.learn (Hand.Allows P) (fun _ m => P.operatorMode = false → m.Clean)
      (claimRefund P b bet ccy) m := by
  have hclaim (b' : ℕ) (hs : Stmt.claimCancel b = .claimCancel b') : m.Claiming P b' := by
    obtain rfl : b = b' := by simpa using hs
    exact ⟨⟨bet, hf⟩, hm⟩
  refine follows_await_bind (Hand.allows_writes (.cancel b) (by decide) nofun nofun nofun nofun hclaim nofun nofun)
    (fun n => ?_) fun _ _ => .inr (.inl rfl)
  by_cases hn : n = 0
  · have hsame : m.learn (.claimCancel b) (.ok n) = m := by simp [Hand.learn, Hand.swapped, hn]
    rw [hsame, if_pos hn]
    exact hm
  · have htask : (m.learn (.claimCancel b) (.ok n)).task = .refunding b bet := by
      simp [Hand.learn, Hand.swapped, Hand.claim, hn, hf]
    rw [if_neg hn]
    refine follows_bind ((follows_credit (fun ha => .refund htask ha) nofun).mono fun r m' hr => ?_)
    cases r with
    | ok tx => exact fun hP => .inl (hr hP)
    | error e =>
        intro hP
        rcases hr.2 hP with ha | hfail
        · exact .inr (.inr ⟨b, bet, hr.1.trans htask, ha⟩)
        · exact .inr (.inl hfail)

lemma minds_cancelBet (n u : ℕ) (p : Panel) : Minds P (cancelBet P n u p) := by
  have hK : Compositional fun (α : Type) (p : Program game α) => Minds P p := minds_compositional
  refine hK.bind (minds_await rfl) fun state => ?_
  split
  · exact hK.ret _
  split
  · exact hK.ret _
  intro m hm
  refine follows_await_bind (Hand.allows_of_offBooks rfl) (fun found => ?_) fun _ => hm
  match found with
  | none => exact hm
  | some (b, bet) =>
      refine follows_await_bind (Hand.allows_of_offBooks rfl) (fun wallet => ?_) fun _ => hm
      dsimp only
      split
      · exact hm
      · refine follows_claimRefund ?_ rfl _
        exact hm

lemma follows_payWin {b : ℕ} {bet : Bet} {mult : ℕ} {p : ℤ} (ht : m.task = .paying b bet p) (ccy : ℕ) :
    Follows Hand.learn (Hand.Allows P) (fun _ m => P.operatorMode = false → m.Clean)
      (payWin P b bet mult p ccy) m := by
  refine follows_bind (follows_attempt ((follows_credit (fun hp => .payout ht hp) nofun).mono fun r m' hr => ?_))
  cases r with
  | error e =>
      refine follows_await_bind ?_ (fun u _ => .inl rfl) fun _ _ => .inr (.inl rfl)
      refine Hand.allows_writes (.pending b) (by decide) nofun nofun (fun b' hs => ?_) nofun nofun nofun nofun
      obtain ⟨rfl, -⟩ := Stmt.updateBet.inj hs
      exact ⟨bet, p, hr.1.trans ht, hr.2⟩
  | ok tx =>
      have hclean : P.operatorMode = false → m'.Clean := fun hP => .inl (hr hP)
      refine follows_await_bind ?_ (fun u => ?_) fun _ => hclean
      · refine Hand.allows_writes (.paid b tx.id) (by decide) nofun nofun (fun b' hs => ?_) nofun nofun nofun nofun
        obtain ⟨-, hdata⟩ := Stmt.updateBet.inj hs
        simp at hdata
      · exact minds_compositional.bind (minds_await rfl) (fun _ => minds_compositional.ret _) m' hclean

lemma minds_cashOut (n u : ℕ) (p : Panel) (mm : Option ℕ) : Minds P (cashOut P n u p mm) := by
  have hK : Compositional fun (α : Type) (p : Program game α) => Minds P p := minds_compositional
  refine hK.bind (minds_await rfl) fun state => ?_
  split
  · exact hK.ret _
  split
  · exact hK.ret _
  refine hK.bind ?_ fun mult => fun m hm => ?_
  · cases mm with
    | none => exact minds_await rfl
    | some x => exact hK.ret _
  refine follows_await_bind (Hand.allows_of_offBooks rfl) (fun found => ?_) fun _ => hm
  match found with
  | none => exact hm
  | some (b, bet) =>
      refine follows_await_bind (Hand.allows_of_offBooks rfl) (fun wallet => ?_) fun _ => hm
      refine follows_await_bind (Hand.allows_of_offBooks rfl) (fun round => ?_) fun _ => hm
      match round with
      | none => exact hm
      | some round =>
          dsimp only
          split
          · exact hm
          split
          · exact hm
          refine follows_await_bind (Hand.allows_writes (.cashOut _ _ _) (by decide) nofun nofun nofun nofun nofun
            (fun b' mult' p' hs => ?_) nofun) (fun n => ?_) fun _ _ => .inr (.inl rfl)
          · obtain ⟨rfl, -⟩ : b = b' ∧ _ := by simpa using hs
            exact ⟨⟨bet, rfl⟩, hm⟩
          by_cases hn : n = 0
          · subst hn
            exact hm
          · rw [if_neg hn]
            exact follows_payWin (by simp [Hand.learn, Hand.swapped, Hand.claim, hn]) _

lemma minds_settleRound (r : ℕ) : Minds P (settleRound r) := by
  have hK : Compositional fun (α : Type) (p : Program game α) => Minds P p := minds_compositional
  refine hK.bind (minds_await rfl) fun active => ?_
  split
  · exact hK.ret _
  · intro m hm
    exact follows_await_bind (Hand.allows_writes (.bust r) (by decide) nofun nofun nofun nofun nofun nofun nofun)
      (fun n => hm) fun _ _ => .inr (.inl rfl)

lemma minds_betting {ok : PlaceBet → Prop} : BettingParts P (fun _ p => Minds P p) ok where
  aside hp := minds_plain (hp.mono fun _ hs => hs.1)
  placeBet a _ := minds_placeBet a
  cancelBet := minds_cancelBet
  cashOut := minds_cashOut
  settleRound := minds_settleRound

lemma environment_minds {e : Event} {n : ℕ} {σ σ' : State} {p : Program game Outcome}
    (he : environment P e n σ = some (σ', some p)) (hb : e.ofBetting) : Minds P p := by
  have hparts : BettingParts P (fun _ p => Minds P p) fun _ => True := minds_betting
  exact environment_betting hparts minds_plain minds_compositional he hb fun _ _ => trivial

end Bets

end VaultRun.Game
