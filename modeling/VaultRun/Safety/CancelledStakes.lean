import VaultRun.Game.Debts
import VaultRun.Game.Postings
import VaultRun.Game.Scenario

/-!
A cancelled stake is refunded in full as long as the refund that follows the claim goes through: `cancelled` is
a terminal status, and nothing comes back to a refund that failed.
-/

namespace VaultRun.Safety.CancelledStakes

open VaultRun.Concurrency VaultRun.Game Program

def cancels (b : ℕ) (x : GameEntry) (log : List GameEntry) : Bool :=
  match x with
  | .answered i _ _ before after => statusIn before b = some .active &&
      statusIn after b = some .cancelled && readWallet (lastBy i log)
  | _ => false

/-- `cancelBet` has claimed bet `b`, which was `y` until then. -/
def Cancelled (b : ℕ) (y : Bet) : List GameEntry → Prop
  | [] => False
  | x :: log => (cancels b x log ∧ x.before.bets.row b = some y) ∨ Cancelled b y log

/-- The claim is acknowledged, and there is a stake to refund. -/
def claimStands (b i : ℕ) (o : Oracle) (w : GameWorld) : Stmt → Bool
  | .updateBets wh d => wh.id ≠ some b || d.status ≠ some .cancelled ||
      !readWallet (lastBy i w.log) || statusIn w.state b ≠ some .active ||
        (o ≠ .unacked && (w.state.bets.row b).any (0 < ·.amount))
  | _ => true

def StakeBack (P : Params) (b : ℕ) (σ : State) : Bool :=
  (σ.bets.row b).any fun x => Applied P (.refund b) x.walletId x.amount σ

/-- A call that has cancelled bet `b` lives, and its wallet delivers, until the refund is booked. -/
@[reducible] def refundRule (P : Params) (b : ℕ) : GameRule where
  act i o s w := claimStands b i o w s ∧
    (processing (cancels b) i w.log → StakeBack P b w.state ∨ Delivers i o w s)
  kill i w := processing (cancels b) i w.log → StakeBack P b w.state
  env _ _ _ := True

structure RefundInv (b : ℕ) (w : GameWorld) : Prop where
  outstanding : ∀ y, Cancelled b y w.log →
    Moved (.refund b) w.state ∨ ∃ i, processing (cancels b) i w.log
  standing : Standing (.refund b) w.state
  outbox : ∀ ref row, w.state.rollbacks.row ref = some row → row.transactionId ≠ .refund b

structure RefundPre (b i : ℕ) (s : Stmt) (w : GameWorld) : Prop where
  cleared : s.ofWallet = false → processing (cancels b) i w.log → Moved (.refund b) w.state
  undone : s.undone ≠ some (.refund b)

abbrev PaidUp (b i : ℕ) : GameWorld → Prop :=
  NotOwing (cancels b) (fun w => Moved (.refund b) w.state) i

def cancelledStakes (P : Params) (b : ℕ) : Contract (system P) where
  rule := refundRule P b
  inv := RefundInv b
  stmts := Stmt.Issued
  pre i s w := RefundPre b i s w
  ended i _ w := PaidUp b i w

variable {P : Params} {i b t : ℕ} {w w' : GameWorld} {s : Stmt} {r : game.Reply s}
  {log : List GameEntry}

section Step

variable {o : Oracle} {σ' : State} (hexec : exec P o i s w.state = some (r, σ'))
include hexec

lemma update_of_cancels (h : cancels b (.answered i s r w.state σ') log) :
    (∃ wh d, s = .updateBets wh d ∧ d.status = some .cancelled ∧
      ∃ x, w.state.bets.row b = some x ∧ wh.holds w.state.rounds b x) ∨
      ∃ d, s = .updateBet b d ∧ d.status = some .cancelled := by
  obtain ⟨⟨hactive, hcancelled⟩, -⟩ : (statusIn w.state b = some .active ∧
      statusIn σ' b = some .cancelled) ∧ readWallet (lastBy i log) := by
    simpa [cancels] using h
  have hstatus {d : BetData} {x : Bet} (hx : w.state.bets.row b = some x)
      (hrow : σ'.bets.row b = some (d.apply w.state.now x)) : d.status = some .cancelled := by
    simp only [statusIn, hx, hrow, Option.map_some, BetData.apply_status, Option.some.injEq]
      at hactive hcancelled
    cases hd : d.status <;> simp_all
  rcases exec_betChange hexec b with hk | ⟨rfl, -, hrow⟩ | ⟨hold, hw, hrow⟩ | ⟨hold, hrow⟩ | hdel
  · rw [statusIn, hk, ← statusIn, hactive] at hcancelled
    cases hcancelled
  · simp [statusIn, hrow] at hcancelled
  · exact .inl ⟨_, _, rfl, hstatus hold hrow, _, hold, hw⟩
  · exact .inr ⟨_, rfl, hstatus hold hrow⟩
  · simp [statusIn, hdel] at hcancelled

lemma paidUp_own (hw : PaidUp b i w) (hu : s.undone ≠ some (.refund b))
    (hc : cancels b (.answered i s r w.state σ') w.log = false) : PaidUp b i (w.answer i s r σ') :=
  NotOwing.answer hw (fun _ => by simp [hc]) fun hm => hm.exec hexec hu

end Step

lemma moved_of_stakeBack {σ : State} (h : StakeBack P b σ) : Moved (.refund b) σ := by
  obtain ⟨x, -, hx⟩ := (Option.any_eq_true _ _).1 h
  exact moved_of_applied hx

lemma cancelledStakes_step (hi : RefundInv b w) (hp : RefundPre b i s w)
    (ha : (cancelledStakes P b).Answers i s w r w') : RefundInv b w' := by
  obtain ⟨o, σ', -, hexec, rfl⟩ := ha
  refine ⟨?_, hi.standing.exec hexec hp.undone, fun ref row hrow htx => ?_⟩
  · rintro y (⟨hc, -⟩ | hc)
    · have hwal : s.ofWallet = false := by
        rcases update_of_cancels hexec hc with ⟨wh, d, rfl, -⟩ | ⟨d, rfl, -⟩ <;> rfl
      exact .inr ⟨i, by rwa [World.answer_log, processing_own hwal]⟩
    · rcases hi.outstanding y hc with happ | ⟨j, hj⟩
      · exact .inl (happ.exec hexec hp.undone)
      by_cases hij : i = j
      · subst hij
        cases hwal : s.ofWallet with
        | true => exact .inr ⟨i, by rwa [World.answer_log, processing_wallet hwal]⟩
        | false => exact .inl ((hp.cleared hwal hj).exec hexec hp.undone)
      · exact .inr ⟨j, by rwa [World.answer_log, processing_other hij]⟩
  · rcases exec_rollback_row hexec hrow with ⟨old, hold, heq⟩ | rfl
    · exact hi.outbox ref old hold (heq.trans htx)
    · exact hp.undone (by simp [htx])

lemma cancelledStakes_move (hi : RefundInv b w) (hm : (cancelledStakes P b).Moves w w') :
    RefundInv b w' := by
  have htables := moves_tables hm
  have hproc (i : ℕ) := moves_processing (cancels b) i hm
  have hcancelled (y : Bet) : Cancelled b y w'.log → Cancelled b y w.log := by
    rcases hm with ⟨n, e, a, p, -, -, rfl⟩ | ⟨j, -, rfl⟩
    · exact fun h => h.resolve_left (by simp [cancels])
    · exact fun h => h.resolve_left (by simp [cancels])
  refine ⟨fun y hc => ?_, hi.standing.same htables, fun ref row hrow => ?_⟩
  · rcases hi.outstanding y (hcancelled y hc) with happ | ⟨i, h⟩
    · exact .inl (happ.same htables)
    · exact .inr ⟨i, by rwa [hproc]⟩
  · rw [htables.rollbacks] at hrow
    exact hi.outbox ref row hrow

lemma stable_applied : (cancelledStakes P b).Stable i fun w => Moved (.refund b) w.state := by
  rintro w w' ⟨-, -, hm | ⟨j, s, r, -, -, hp, o, σ', -, hexec, rfl⟩⟩ hw
  · exact hw.same (moves_tables hm)
  · exact hw.exec hexec hp.undone

lemma stable_paidUp : (cancelledStakes P b).Stable i (PaidUp b i) := stable_notOwing stable_applied

section Programs

def Cancels : Stmt → Prop
  | .updateBets _ d | .updateBet _ d => d.status = some .cancelled
  | _ => False

lemma Cancels.writesBets (s : Stmt) (h : Cancels s) : s.writesBets := by
  cases s <;> first | rfl | cases h

lemma not_cancels {o : Oracle} {σ' : State} (hs : ¬ Cancels s)
    (hexec : exec P o i s w.state = some (r, σ')) :
    cancels b (.answered i s r w.state σ') log = false := by
  rw [← Bool.not_eq_true]
  intro h
  rcases update_of_cancels hexec h with ⟨wh, d, rfl, hd, -⟩ | ⟨d, rfl, hd⟩
  · exact hs hd
  · exact hs hd

lemma wallet_not_cancels (hs : s.ofWallet) : ¬ Cancels s := by
  intro hc
  have := hc.writesBets
  cases s <;> simp_all

lemma harmless_part {q : Part} (hs : q.Issues s) (hq : q ∉ [Part.cancelBet, .refund, .recover, .heal, .drain]) :
    Harmless Cancels (.refund b) False s := by
  refine ⟨hs.issued, fun hc => ?_, fun hu => ?_⟩
  · cases hs.writes hc.writesBets <;> simp_all [Cancels]
  · have := hs.undoes hu
    cases q <;> simp_all [Part.undoes]

lemma keeps_harmless {α : Type} {p : Program game α} (hp : p.Uses (Harmless Cancels (.refund b) False)) :
    Keeps (cancelledStakes P b) i (PaidUp b i) p := by
  refine keeps_of_uses hp stable_paidUp fun s w hs _ hw => ⟨⟨fun _ => hw, hs.undone⟩, ?_⟩
  rintro r w' ⟨o, σ', -, hexec, rfl⟩ _
  exact paidUp_own hexec hw hs.undone (not_cancels hs.claim hexec)

lemma keeps_part {α : Type} {p : Program game α} {q : Part} (hp : p.Uses q.Issues)
    (hq : q ∉ [Part.cancelBet, .refund, .recover, .heal, .drain]) :
    Keeps (cancelledStakes P b) i (PaidUp b i) p :=
  keeps_harmless (hp.mono fun _ hs => harmless_part hs hq)

lemma keeps_plain {α : Type} {p : Program game α} (hp : p.Uses fun s : Stmt => s.plain) :
    Keeps (cancelledStakes P b) i (PaidUp b i) p :=
  keeps_harmless (hp.mono fun _ => harmless_plain Cancels.writesBets)

section Reversals

def fromWallet : Option GameEntry → Bool
  | some (.answered _ s _ _ _) => s.ofWallet
  | _ => false

lemma not_readWallet {last : Option GameEntry} (h : fromWallet last) : readWallet last = false := by
  unfold fromWallet at h
  split at h
  · cases ‹Stmt› <;> simp_all [readWallet]
  · cases h

lemma keeps_fromWallet {α : Type} {p : Program game α}
    (hp : p.Uses fun s : Stmt => s.ofWallet ∧ s.undone ≠ some (.refund b)) :
    Keeps (cancelledStakes P b) i (fun w => PaidUp b i w ∧ fromWallet (lastBy i w.log)) p := by
  refine keeps_of_uses hp (stable_paidUp.and (Contract.stable_lastBy (fromWallet ·)))
    fun s w hs _ hw => ⟨⟨fun _ => hw.1, hs.2⟩, ?_⟩
  rintro r w' ⟨o, σ', -, hexec, rfl⟩ _
  refine ⟨paidUp_own hexec hw.1 hs.2 (not_cancels (wallet_not_cancels hs.1) hexec), ?_⟩
  rw [World.answer_log, lastBy_answered_self]
  exact hs.1

lemma sat_wallet {α : Type} {p : Program game α}
    (hp : p.Uses fun s : Stmt => s.ofWallet ∧ s.undone ≠ some (.refund b)) (hret : ∀ a, p ≠ .ret a)
    (hw : PaidUp b i w) :
    Sat (cancelledStakes P b) i (fun r w => PaidUp b i w ∧
      ∀ a, r = .ok a → fromWallet (lastBy i w.log)) p w := by
  cases p with
  | ret a => exact absurd rfl (hret a)
  | raise e => exact fun w₁ h₁ _ => ⟨stable_paidUp.interferes h₁ hw, by simp⟩
  | call s k =>
      intro w₁ h₁ _
      have hw₁ := stable_paidUp.interferes h₁ hw
      refine ⟨⟨fun _ => hw₁, hp.1.2⟩, ?_⟩
      rintro r w₂ ⟨o, σ', -, hexec, rfl⟩ hi₂
      refine (keeps_fromWallet (hp.2 r) _ hi₂ ⟨?_, ?_⟩).mono fun _ _ _ h => ⟨h.1, fun _ _ => h.2⟩
      · exact paidUp_own hexec hw₁ hp.1.2 (not_cancels (wallet_not_cancels hp.1.1) hexec)
      · rw [World.answer_log, lastBy_answered_self]
        exact hp.1.1

lemma credit_ne_ret (wl : ℕ) (amt : ℤ) (ty : LedgerType) (k : Key) (ref : ℕ) (a : WalletTxResult) :
    P.wallet.credit wl amt ty k ref ≠ .ret a := by
  cases hP : P.operatorMode with
  | true => simp [Params.wallet, hP, walletRouter, Game.await, Program.await, Bind.bind, Program.bind]
  | false =>
      by_cases hamt : amt ≤ 0 <;>
        simp [Params.wallet, hP, ledgerService, LedgerService.credit, hamt, Program.await]

lemma reverse_ne_ret (wl : ℕ) (p : ReverseParams) (hd : p.originalDirection = .debit) (a : Unit) :
    P.wallet.reverse wl p ≠ .ret a := by
  cases hP : P.operatorMode with
  | true => simp [Params.wallet, hP, walletRouter, Game.await, Program.await, Bind.bind, Program.bind]
  | false =>
      by_cases hamt : p.amount ≤ 0 <;>
        simp [Params.wallet, hP, ledgerService, LedgerService.reverse, hd, LedgerService.credit, hamt,
          Program.await, Bind.bind, Program.bind]

lemma sat_afterWallet {s : Stmt} (hu : s.undone ≠ some (.refund b)) (hw : PaidUp b i w)
    (hlast : fromWallet (lastBy i w.log)) :
    Sat (cancelledStakes P b) i (fun _ => PaidUp b i) (Game.await s) w := by
  refine sat_await fun w₁ h₁ _ => ?_
  have hw₁ := stable_paidUp.interferes h₁ hw
  have hlast₁ := (Contract.stable_lastBy (fromWallet ·)).interferes h₁ hlast
  refine ⟨⟨fun _ => hw₁, hu⟩, ?_⟩
  rintro r w₂ ⟨o, σ', -, hexec, rfl⟩ _ w₃ h₃ _
  refine stable_paidUp.interferes h₃ (paidUp_own hexec hw₁ hu ?_)
  simp [cancels, not_readWallet hlast₁]

lemma keeps_refundThen {α : Type} {p : Program game α} {s : Stmt} {f : α → Program game s.Result}
    (hp : p.Uses fun s : Stmt => s.ofWallet ∧ s.undone ≠ some (.refund b)) (hret : ∀ a, p ≠ .ret a)
    (hf : ∀ a, f a = Game.await s) (hu : s.undone ≠ some (.refund b)) :
    Keeps (cancelledStakes P b) i (PaidUp b i) (p >>= f) := by
  intro w _ hw
  refine sat_bind ((sat_wallet hp hret hw).mono ?_)
  rintro (e | a) w₁ hi₁ ⟨hw₁, hlast⟩
  · exact hw₁
  · dsimp only
    rw [hf a]
    exact sat_afterWallet hu hw₁ (hlast a rfl)

lemma restartRefund_uses (x : ℕ × Bet) : (P.wallet.reverse x.2.walletId ⟨.debit x.2.slot,
    .restartRefund x.1, x.2.amount, .debit, .refund, x.1, some .restartRefund⟩).Uses
      fun s : Stmt => s.ofWallet ∧ s.undone ≠ some (.refund b) :=
  wallet_reverse_uses (m := fun _ => True) (u := (· = .debit x.2.slot))
    (fun s hs _ hu => ⟨hs, fun h => by cases hu _ h⟩) _ trivial rfl

lemma keeps_refundOne (u : Unit) (x : ℕ × Bet) :
    Keeps (cancelledStakes P b) i (PaidUp b i) (GameEngineService.refundOne P u x) :=
  keeps_catching (keeps_refundThen (restartRefund_uses x) (reverse_ne_ret _ _ rfl) (fun _ => rfl)
    (by simp)) fun _ => keeps_ret stable_paidUp ()

lemma keeps_closeAndRefundRound (r : ℕ) :
    Keeps (cancelledStakes P b) i (PaidUp b i) (GameEngineService.closeAndRefundRound P r) :=
  keeps_bind (keeps_plain (await_plain rfl)) fun _ =>
    keeps_bind (keeps_loop stable_paidUp () fun x _ u => keeps_refundOne u x) fun _ =>
      keeps_plain (await_plain rfl)

lemma keeps_healOne (n : ℕ) (x : ℕ × Bet) :
    Keeps (cancelledStakes P b) i (PaidUp b i) (GameEngineService.healOne P n x) :=
  keeps_bind (keeps_attempt (keeps_refundThen (restartRefund_uses x) (reverse_ne_ret _ _ rfl)
    (fun _ => rfl) (by simp))) fun _ => keeps_ret stable_paidUp _

lemma keeps_recoverStrandedActiveBets (t : ℕ) :
    Keeps (cancelledStakes P b) i (PaidUp b i)
      (GameEngineService.recoverStrandedActiveBets P t) :=
  keeps_bind (keeps_plain (await_plain rfl)) fun _ => keeps_bind (keeps_plain (await_plain rfl))
    fun _ => keeps_loop stable_paidUp _ fun x _ n => keeps_healOne n x

lemma keeps_reverseSlot (x : ℕ × Bet) :
    Keeps (cancelledStakes P b) i (PaidUp b i) (GameEngineService.reverseSlot P x) := by
  have hrollback : (P.wallet.rollback x.2.walletId (.debit x.2.slot) x.1).Uses (Harmless Cancels (.refund b) False) :=
    wallet_rollback_uses (m := fun _ => True) (u := (· = .debit x.2.slot))
      (fun s hs _ hu => harmless_wallet Cancels.writesBets hs fun h => by cases hu _ h) rfl _ _
  have hcredit : (P.wallet.credit x.2.walletId x.2.amount .refund (.restartRefund x.1) x.1).Uses
      fun s : Stmt => s.ofWallet ∧ s.undone ≠ some (.refund b) :=
    (credit_uses _ _ _ _ _).mono fun s hs => ⟨hs.1, by simp [hs.2.2]⟩
  refine keeps_bind (keeps_harmless hrollback) fun _ =>
    keeps_bind (keeps_plain (await_plain rfl)) fun found => ?_
  split
  · exact keeps_refundThen hcredit (credit_ne_ret _ _ _ _ _) (fun _ => rfl) (by simp)
  · refine keeps_harmless (uses_compositional.bind (uses_compositional.attempt
      (await_uses ⟨fun _ => ⟨_, .forgetSlot x.1⟩, id, by simp⟩)) fun _ => trivial)

lemma keeps_recoverReservingBets (t : ℕ) :
    Keeps (cancelledStakes P b) i (PaidUp b i) (GameEngineService.recoverReservingBets P t) := by
  have hcutoff : (GameEngineService.cutoffOf t).Uses fun s : Stmt => s.plain := by
    simp [GameEngineService.cutoffOf, Program.await]
  refine keeps_bind (keeps_plain hcutoff) fun _ => keeps_bind (keeps_plain (await_plain rfl))
    fun slots => keeps_loop stable_paidUp _ fun x _ n => ?_
  refine keeps_bind (keeps_harmless ?_) fun claimed => ?_
  · unfold GameEngineService.claimSlot
    split
    · exact await_uses ⟨fun _ => ⟨_, .claimSlot x.1⟩, by simp [Cancels], by simp⟩
    · trivial
  split
  · exact keeps_ret stable_paidUp _
  · refine keeps_bind (keeps_attempt (keeps_reverseSlot x)) fun done => ?_
    split <;> exact keeps_ret stable_paidUp _

end Reversals

section Refund

def Paying (b i n : ℕ) (w : GameWorld) : Prop :=
  Moved (.refund b) w.state ∨ (processing (cancels b) i w.log ∧
    tries i w.log + n = SeamlessOperatorWallet.maxRetries ∧ 0 < n)

lemma stable_paying (n : ℕ) : (cancelledStakes P b).Stable i (Paying b i n) := by
  rintro w w' h (hw | ⟨hproc, ht, hn⟩)
  · exact .inl (stable_applied w w' h hw)
  · exact .inr ⟨by rwa [disturbs_processing h], by rwa [disturbs_tries h], hn⟩

lemma Paying.applied (h : Paying b i 0 w) : Moved (.refund b) w.state :=
  h.resolve_right fun h => absurd h.2.2 (lt_irrefl 0)

lemma wallet_pre (hs : s.ofWallet) (hu : s.undone = none) : RefundPre b i s w :=
  ⟨fun h => by simp [hs] at h, by simp [hu]⟩

lemma Paying.answer {n : ℕ} (h : Paying b i n w) (hs : s.ofWallet) (hu : s.undone = none)
    (hwin : ∀ req, s ≠ .operatorWin req) (ha : (cancelledStakes P b).Answers i s w r w') :
    Paying b i n w' := by
  obtain ⟨o, σ', -, hexec, rfl⟩ := ha
  rcases h with hp | ⟨hproc, ht, hn⟩
  · exact .inl (hp.exec hexec (by simp [hu]))
  · right
    rw [World.answer_log, processing_wallet hs, tries_wallet hs hwin]
    exact ⟨hproc, ht, hn⟩

lemma Paying.answerWin {n : ℕ} {req : OperatorRequest} {r : Except Err WalletTxResult}
    (h : Paying b i (n + 1) w) (hk : req.transactionId = .refund b) (hi : RefundInv b w)
    (ha : (cancelledStakes P b).Answers i (.operatorWin req) w r w') : Paying b i n w' := by
  obtain ⟨o, σ', ⟨-, hrule⟩, hexec, rfl⟩ := ha
  rcases h with hp | ⟨hproc, ht, -⟩
  · exact .inl (hp.exec hexec (by simp))
  rcases hrule hproc with hback | hd
  · exact .inl ((moved_of_stakeBack hback).exec hexec (by simp))
  rcases operatorWin_cases hexec (hk ▸ hi.standing) with ho | happ
  · have hleft : tries i w.log < 2 := by
      rcases ho with rfl | rfl <;> simpa [Delivers] using hd
    right
    rw [World.answer_log, processing_wallet rfl, tries_win]
    unfold SeamlessOperatorWallet.maxRetries at ht ⊢
    exact ⟨hproc, by omega, by omega⟩
  · exact .inl (hk ▸ happ)

lemma sat_moveWin {req : OperatorRequest} (hk : req.transactionId = .refund b) (n : ℕ)
    (hw : Paying b i n w) :
    Sat (cancelledStakes P b) i (fun _ w => Moved (.refund b) w.state)
      (SeamlessOperatorWallet.moveWin req n) w := by
  induction n generalizing w with
  | zero => exact fun w₁ h₁ _ => stable_applied.interferes h₁ hw.applied
  | succ n ih =>
      refine sat_catching (sat_await fun w₁ h₁ hi₁ => ⟨wallet_pre rfl rfl, ?_⟩)
      intro r w₂ ha hi₂ w₃ h₃ _
      have hw₂ := ((stable_paying (n + 1)).interferes h₁ hw).answerWin hk hi₁ ha
      have hw₃ := (stable_paying n).interferes h₃ hw₂
      match r with
      | .error e =>
          dsimp only
          by_cases hn : n = 0
          · subst hn
            exact fun w₄ h₄ _ => stable_applied.interferes h₄ hw₃.applied
          · rw [if_neg hn]
            exact ih hw₃
      | .ok res => 
          obtain ⟨o, σ', -, hexec, rfl⟩ := ha
          have happ := moved_of_operatorWin hexec (hk ▸ hi₁.standing)
          exact stable_applied.interferes h₃ (hk ▸ happ)

lemma Paying.reply_ok {n : ℕ} (h : Paying b i n w) (hs : ∀ o, Delivers i o w s = true → o = .ok)
    (hok : ∀ r σ', exec P .ok i s w.state = some (r, σ') → ∃ a, r = .ok a) (hu : s.undone = none)
    {e : Err} (ha : (cancelledStakes P b).Answers i s w (.error e) w') :
    Moved (.refund b) w'.state := by
  obtain ⟨o, σ', ⟨-, hrule⟩, hexec, rfl⟩ := ha
  have hafter (hp : Moved (.refund b) w.state) : Moved (.refund b) σ' :=
    hp.exec hexec (by simp [hu])
  rcases h with hp | ⟨hproc, -⟩
  · exact hafter hp
  rcases hrule hproc with hback | hd
  · exact hafter (moved_of_stakeBack hback)
  · obtain rfl := hs o hd
    obtain ⟨a, ha⟩ := hok _ _ hexec
    cases ha

lemma sat_ledger_credit (wl : ℕ) (amt : ℤ) (ty : LedgerType) (ref n : ℕ) (hamt : 0 < amt)
    (hw : Paying b i n w) :
    Sat (cancelledStakes P b) i (fun _ w => Moved (.refund b) w.state)
      (LedgerService.credit wl amt ty (.refund b) ref) w := by
  rw [LedgerService.credit, if_neg (by omega)]
  refine sat_await fun w₁ h₁ _ => ⟨wallet_pre rfl rfl, ?_⟩
  rintro r w₂ ⟨o, σ', ⟨-, hrule⟩, hexec, rfl⟩ _ w₃ h₃ _
  refine stable_applied.interferes h₃ ?_
  rcases (stable_paying n).interferes h₁ hw with hp | ⟨hproc, -⟩
  · exact hp.exec hexec (by simp)
  rcases hrule hproc with hback | hd
  · exact (moved_of_stakeBack hback).exec hexec (by simp)
  · obtain ⟨ho, hbalance⟩ : o ≠ .lost ∧ (w₁.state.wallets.row wl).any (0 ≤ ·.balance + amt) := by
      simpa [Delivers] using hd
    exact moved_of_delivered hexec ho hbalance

lemma sat_credit (wl : ℕ) (amt : ℤ) (ty : LedgerType) (ref : ℕ) (hamt : 0 < amt)
    (hw : Paying b i SeamlessOperatorWallet.maxRetries w) :
    Sat (cancelledStakes P b) i (fun _ w => Moved (.refund b) w.state)
      (P.wallet.credit wl amt ty (.refund b) ref) w := by
  have hoperator {w : GameWorld} (hw : Paying b i SeamlessOperatorWallet.maxRetries w) :
      Sat (cancelledStakes P b) i (fun _ w => Moved (.refund b) w.state)
        (SeamlessOperatorWallet.credit wl amt ty (.refund b) ref) w := by
    refine sat_await_bind fun w₁ h₁ _ => ⟨wallet_pre rfl rfl, fun r w₂ ha _ => ?_⟩
    have hw₁ := (stable_paying _).interferes h₁ hw
    match r with
    | .error e =>
        refine fun w₃ h₃ _ => stable_applied.interferes h₃ (hw₁.reply_ok (by simp [Delivers]) ?_ rfl ha)
        rintro r σ' ⟨⟩
        exact ⟨_, rfl⟩
    | .ok s => exact sat_moveWin rfl _ (hw₁.answer rfl rfl (by simp) ha)
  unfold Params.wallet
  cases P.operatorMode with
  | false => exact sat_ledger_credit wl amt ty ref _ hamt hw
  | true =>
      refine sat_await_bind fun w₁ h₁ _ => ⟨wallet_pre rfl rfl, fun r w₂ ha _ => ?_⟩
      have hw₁ := (stable_paying _).interferes h₁ hw
      match r with
      | .error e =>
          refine fun w₃ h₃ _ => stable_applied.interferes h₃ (hw₁.reply_ok (by simp [Delivers]) ?_ rfl ha)
          rintro r σ' ⟨⟩
          exact ⟨_, rfl⟩
      | .ok demo =>
          have hw₂ := hw₁.answer rfl rfl (by simp) ha
          dsimp only
          split
          · exact sat_ledger_credit wl amt ty ref _ hamt hw₂
          · exact hoperator hw₂

lemma notOwing_of_claim {id : ℕ} {r : Except Err ℕ}
    (ha : (cancelledStakes P b).Answers i (.claimCancel id) w r w') (hw : PaidUp b i w)
    (hread : readWallet (lastBy i w.log)) (hr : ∀ n, r = .ok n → n = 0 ∨ id ≠ b) :
    PaidUp b i w' := by
  obtain ⟨o, σ', ⟨hstands, -⟩, hexec, rfl⟩ := ha
  refine paidUp_own hexec hw (by simp) ?_
  rw [← Bool.not_eq_true]
  intro hc
  obtain ⟨⟨hactive, hcancelled⟩, -⟩ : (statusIn w.state b = some .active ∧
      statusIn σ' b = some .cancelled) ∧ readWallet (lastBy i w.log) := by
    simpa [cancels] using hc
  have hid : id = b := by
    rcases update_of_cancels hexec hc with ⟨wh, d, heq, -, x, -, hx⟩ | ⟨d, heq, -⟩
    · obtain ⟨rfl, -⟩ := Stmt.updateBets.inj heq
      have hholds : id = b ∧ x.status = .active := by simpa [BetWhere.holds] using hx
      exact hholds.1
    · cases heq
  subst hid
  have hne : σ'.bets.row id ≠ w.state.bets.row id := by
    intro hsame
    rw [statusIn, hsame, ← statusIn, hactive] at hcancelled
    cases hcancelled
  rcases exec_swap_ne hexec hne with rfl | ⟨n, hn, hn0⟩
  · simp [claimStands, hread, hactive] at hstands
  · exact absurd rfl ((hr n hn).resolve_left hn0)

/-- A claim that counts the row of bet `b` leaves its call with all its tries, and a stake to refund. -/
lemma paying_of_claim {n : ℕ} (ha : (cancelledStakes P b).Answers i (.claimCancel b) w (.ok n) w')
    (hn : n ≠ 0) (hread : readWallet (lastBy i w.log)) :
    Paying b i SeamlessOperatorWallet.maxRetries w' ∧ (w.state.bets.row b).any (0 < ·.amount) := by
  obtain ⟨o, σ', ⟨hstands, -⟩, hexec, rfl⟩ := ha
  obtain ⟨x, hx, hst, hrow⟩ := exec_swap hexec hn
  have hactive : statusIn w.state b = some .active := by simp [statusIn, hx, hst]
  have hcancelled : statusIn σ' b = some .cancelled := by simp [statusIn, hrow]
  refine ⟨.inr ⟨?_, ?_, by decide⟩, ?_⟩
  · rw [World.answer_log, processing_own rfl]
    simp [cancels, hactive, hcancelled, hread]
  · rw [World.answer_log, tries_own rfl, Nat.zero_add]
  · have : o ≠ .unacked ∧ (w.state.bets.row b).any (0 < ·.amount) := by
      simpa [claimStands, hread, hactive] using hstands
    exact this.2

lemma sat_claimRefund (id : ℕ) (bet : Bet) (ccy : ℕ) (hw : PaidUp b i w)
    (hread : readWallet (lastBy i w.log)) (hterms : w.state.OnTerms id bet.terms) :
    Sat (cancelledStakes P b) i (fun _ => PaidUp b i) (BetsService.claimRefund P id bet ccy) w := by
  refine sat_await_bind fun w₁ h₁ _ => ?_
  have hw₁ := stable_paidUp.interferes h₁ hw
  have hread₁ := (Contract.stable_lastBy (readWallet ·)).interferes h₁ hread
  have hterms₁ := (stable_onTerms (fun _ h => h) id bet.terms).interferes h₁ hterms
  refine ⟨⟨fun _ => hw₁, by simp⟩, fun r w₂ ha hi₂ => ?_⟩
  match r with
  | .error e =>
      have hw₂ := notOwing_of_claim ha hw₁ hread₁ (by simp)
      exact fun w₃ h₃ _ => stable_paidUp.interferes h₃ hw₂
  | .ok count =>
      dsimp only
      split
      · exact keeps_ret stable_paidUp _ w₂ hi₂
          (notOwing_of_claim ha hw₁ hread₁ fun n hn => .inl (by simp_all))
      by_cases hid : id = b
      · subst hid
        obtain ⟨hpaying, hstake⟩ := paying_of_claim ha ‹_› hread₁
        have hamt : 0 < bet.amount := by
          obtain ⟨x, hx, hpos⟩ := (Option.any_eq_true _ _).1 hstake
          have : x.amount = bet.amount := congrArg NewBet.amount (hterms₁.2 x hx)
          rw [← this]
          simpa using hpos
        refine sat_bind ((sat_credit bet.walletId bet.amount .refund id hamt hpaying).mono ?_)
        rintro (e | refund) w₃ hi₃ happ
        · exact fun _ => happ
        · exact keeps_ret stable_paidUp _ w₃ hi₃ fun _ => happ
      · have hcredit := (credit_uses (P := P) bet.walletId bet.amount .refund (.refund id) id).mono
          fun s hs => harmless_wallet (k := .refund b) (q := False) Cancels.writesBets hs.1 (by simp [hs.2.2])
        exact keeps_bind (keeps_harmless hcredit) (fun _ => keeps_ret stable_paidUp _) w₂ hi₂
          (notOwing_of_claim ha hw₁ hread₁ fun _ _ => .inr hid)

end Refund

lemma keeps_drainPending (mode : Bool) (l : ℕ) :
    Keeps (cancelledStakes P b) i (PaidUp b i) (WalletRollbackService.drainPending mode l) := by
  have hrows (p : Prop) : (cancelledStakes P b).Stable i fun _ => p := Contract.stable_const p
  refine Game.keeps_drainPending stable_paidUp keeps_plain
    (T := fun rows _ => ∀ x ∈ rows, x.2.transactionId ≠ .refund b) (fun rows => hrows _) ?_ ?_ mode l
  · rintro rows w hi hfound ⟨ref, row⟩ hmem
    exact hi.outbox ref row (hfound ref row hmem)
  · intro rows n x hx w hi hw
    have hdrain := drainOne_wallet_uses (φ := Harmless Cancels (.refund b) False) (m := fun _ => True)
      (u := (· = x.2.transactionId))
      (fun s hs _ hu => harmless_wallet Cancels.writesBets hs fun h => hw.2 x hx (hu _ h).symm) n x rfl
    exact (keeps_harmless hdrain w hi hw.1).mono fun _ _ _ h => ⟨h, hw.2⟩

lemma cancelledStakes_parts : Parts P fun _ p => Keeps (cancelledStakes P b) i (PaidUp b i) p where
  plain := keeps_plain
  placeBet a _ := keeps_part (placeBet_uses a) (by decide)
  cancelBet n u p := keeps_cancelBet (fun _ h => h) stable_paidUp keeps_plain n u p
    fun id bet ccy w _ hw hread hterms => sat_claimRefund id bet ccy hw hread hterms
  cashOut n u p mm := keeps_harmless ((cashOut_uses n u p mm).mono fun _ hs =>
    hs.elim (harmless_part · (by decide)) (harmless_part · (by decide)))
  settleRound r := keeps_part (settleRound_uses r) (by decide)
  voidBet o b := keeps_part (voidBet_uses o b) (by decide)
  reconcileVoidingBets l := keeps_part (reconcileVoidingBets_uses l) (by decide)
  reconcilePendingPayouts l := keeps_part (reconcilePendingPayouts_uses l) (by decide)
  closeAndRefundRound := keeps_closeAndRefundRound
  recoverReservingBets := keeps_recoverReservingBets
  recoverStrandedActiveBets := keeps_recoverStrandedActiveBets
  drainPending := keeps_drainPending _

end Programs

lemma cancelledStakes_sound : (cancelledStakes P b).Sound :=
  sound_of_parts rfl (fun _ => stable_paidUp) (fun _ => cancelledStakes_parts)
    (fun _ _ _ _ _ _ hi hp ha => cancelledStakes_step hi hp ha) (fun _ _ => cancelledStakes_move)
    (fun _ _ _ hlog => notOwing_of_lastBy hlog) (fun _ _ _ _ hw => hw)
    fun _ _ _ hrule _ _ h _ => stable_paidUp.interferes h
      (NotOwing.kill (fun hproc => moved_of_stakeBack (hrule hproc))
        fun hm => hm.same ⟨rfl, rfl, rfl, rfl, rfl, rfl⟩)

/-- Nothing but the stake of bet `b` has been refunded for it, nothing of it has been taken back, and
nothing is about to be. -/
structure Fresh (P : Params) (b : ℕ) (σ : State) : Prop where
  booked : Booked P (.refund b) (StakeDue b · · ⟨σ, []⟩) σ
  standing : Standing (.refund b) σ
  outbox : ∀ ref row, σ.rollbacks.row ref = some row → row.transactionId ≠ .refund b

/-- The stake of a bet that `cancelBet` has cancelled is booked for the wallet of the bet, or the call
that claimed it is still at it, or a retry finds it active, or a recovery pass selects it. -/
def Refunded (P : Params) (b : ℕ) (c : GameConfig) : Prop :=
  ∀ y, Cancelled b y c.world.log →
    Applied P (.refund b) y.walletId y.amount c.world.state ∨
    (∃ i s k, c.threads[i]? = some (.live (.call s k)) ∧ processing (cancels b) i c.world.log) ∨
    statusIn c.world.state b = some .active ∨ Recoverable b c.world.state

lemma refundInv_initial {σ : State} (h : Fresh P b σ) : RefundInv b ⟨σ, []⟩ :=
  ⟨fun _ => False.elim, h.standing, h.outbox⟩

lemma Cancelled.before {y : Bet} (h : Cancelled b y log) : ∃ x ∈ log, x.before.bets.row b = some y := by
  induction log with
  | nil => cases h
  | cons x log ih =>
      rcases h with ⟨-, hy⟩ | h
      · exact ⟨x, by simp, hy⟩
      · obtain ⟨z, hz, hy⟩ := ih h
        exact ⟨z, by simp [hz], hy⟩

theorem cancelled_stake_not_lost {σ : State} {c : GameConfig} (hσ : Fresh P b σ)
    (h : (refundRule P b).Reaches (system P) (Config.initial σ) c) : Refunded P b c := by
  have hgood : c.Good (cancelledStakes P b) :=
    (Config.good_initial (refundInv_initial hσ)).reaches cancelledStakes_sound h
  intro y hc
  have hstake (hm : Moved (.refund b) c.world.state) :
      Applied P (.refund b) y.walletId y.amount c.world.state := by
    obtain ⟨wl, amt, ⟨d, -, hlog, rfl, rfl⟩, happ⟩ := hm.applied (refund_booked hσ.booked h.free)
    obtain ⟨x, hx, hy⟩ := hc.before
    obtain rfl := hlog x hx y hy
    exact happ
  rcases hgood.inv.outstanding y hc with hm | ⟨i, hi⟩
  · exact .inl (hstake hm)
  · rcases live_or_ended_of_processing hgood hi with ⟨s, k, ht⟩ | ⟨r, hended⟩
    · exact .inr (.inl ⟨i, s, k, ht, hi⟩)
    · exact .inl (hstake (hended hi))

section Runs

open Scenario

lemma fresh_staked : Fresh P 0 (staked .betting .active) where
  booked := ⟨(fun _ h => by cases h), fun _ _ h => by cases h⟩
  standing _ _ h := by cases h
  outbox _ _ h := by cases h

/-- The operator times out once, and answers the second time. -/
theorem cancelled_stake_refunded_by_retry :
    ∃ c : GameConfig, statusIn c.world.state 0 = some .cancelled ∧ Refunded (params true false) 0 c := by
  have hrun : (system (params true false)).run (Config.initial (staked .betting .active))
      [.env (.call (.cancelBet 0 1 .A)), act 0, act 0, act 0, act 0, act 0, act 0,
        .act 0 (.timedOut false), act 0] = some _ := rfl
  exact ⟨_, by decide, cancelled_stake_not_lost fresh_staked (Rule.reaches_of_run (by decide) hrun)⟩

/-- The wallet fails after the claim: the bet is cancelled, and a retry finds no active bet. -/
theorem cancelled_stake_lost :
    ∃ c : GameConfig, Fresh (params false false) 0 (staked .betting .active) ∧
      Rule.free.Reaches (system (params false false)) (Config.initial (staked .betting .active)) c ∧
        ¬ Refunded (params false false) 0 c := by
  have hrun : (system (params false false)).run (Config.initial (staked .betting .active))
      [.env (.call (.cancelBet 0 1 .A)), act 0, act 0, act 0, act 0, .act 0 .lost,
        .env (.call (.cancelBet 0 1 .A)), act 1, act 1, act 1] = some _ := rfl
  refine ⟨_, fresh_staked, Rule.reaches_of_run Rule.obeys_free hrun, fun h => ?_⟩
  rcases h _ (Or.inr (.inr (.inr (.inr (.inr (.inl ⟨by decide, rfl⟩)))))) with happ | ⟨i, s, k, hi, -⟩ | hactive | hr
  · cases happ
  · rcases i with _ | _ | i <;> cases hi
  · cases hactive
  · exact not_recoverable rfl (by decide) hr

end Runs

end VaultRun.Safety.CancelledStakes
