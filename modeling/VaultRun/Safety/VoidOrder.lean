import VaultRun.Game.Scenario
import VaultRun.Game.Transactions

/-!
A void takes the payout back before it returns the stake, as long as it does not take another call's
running lease for the operator's consent.
-/

namespace VaultRun.Safety.VoidOrder

open VaultRun.Concurrency VaultRun.Data VaultRun.Game VaultRun.Game.Transactions Program
  WalletRollbackService SeamlessOperatorWallet

@[reducible] def legRead : Stmt → Option RollbackRef
  | .findRollback ref => if ref.reason.ofVoid then some ref else none
  | _ => none

/-- A leg of a void finds its row under no running lease, and confirmed where it has lost the race for it. -/
@[reducible] def orderRule : GameRule where
  act i _ s w := ∀ ref ∈ legRead s, if refOf i w.log = some ref then Confirmed ref w.state
    else !(w.state.rollbacks.row ref).any (hasLiveLease · w.state.now)
  kill _ _ := True
  env _ _ _ := True

/-- The operator has accepted the rollback of transaction `k` for the row, in this run or before it. -/
def AcceptedFor (σ : State) (ref : RollbackRef) (k : Key) (log : List GameEntry) : Prop :=
  (∃ row, σ.rollbacks.row ref = some row ∧ row.status = .confirmed ∧ row.transactionId = k) ∨
    ∃ later i before after earlier, refOf i earlier = some ref ∧ log = later ++
      .answered i (Stmt.operatorRollback ref.operatorId k ref.betId) (.ok ()) before after :: earlier

@[reducible] def reclaimOf (ref : RollbackRef) : RollbackRef := { ref with reason := .voidReclaim }

/-- What is emitted as the refund of a void is the rollback of the stake debit of the bet, after the operator
has accepted that of the payout, if the bet has one. -/
def RefundedAfter (σ : State) (x : GameEntry) (earlier : List GameEntry) : Prop :=
  ∀ i op k b, x.Issues i (Stmt.operatorRollback op k b) → ∃ ref, refOf i earlier = some ref ∧
    ref.operatorId = op ∧ ref.betId = b ∧ (ref.reason = .voidRefund →
      ∀ bet, x.before.bets.row b = some bet → k = .debit bet.slot ∧
        (0 < bet.payout → AcceptedFor σ (reclaimOf ref) (.payout b) earlier))

def PlaysAtOperator (P : Params) (walletId : ℕ) : Prop :=
  P.operatorMode ∧ P.isDemoWallet walletId = false

@[reducible] def leg (P : Params) (walletId b : ℕ) (reason : Intent) : RollbackRef :=
  ⟨(P.session walletId).operatorId, b, reason⟩

/-- A bet is marked voided when the rollbacks of its stake debit and of its payout have been accepted. -/
def VoidedAfter (P : Params) (σ : State) (x : GameEntry) (earlier : List GameEntry) : Prop :=
  ∀ b bet, x.before.bets.row b = some bet → bet.status ≠ .voided → statusIn x.after b = some .voided →
    PlaysAtOperator P bet.walletId →
      AcceptedFor σ (leg P bet.walletId b .voidRefund) (.debit bet.slot) earlier ∧
        (0 < bet.payout → AcceptedFor σ (leg P bet.walletId b .voidReclaim) (.payout b) earlier)

def Accepted (σ : State) (ref : RollbackRef) (log : List GameEntry) : Prop :=
  Confirmed ref σ ∨ 0 < acks ref log

def Returned (P : Params) (σ : State) (b : ℕ) (bet : Bet) (log : List GameEntry) : Prop :=
  PlaysAtOperator P bet.walletId → Accepted σ (leg P bet.walletId b .voidRefund) log ∧
    (0 < bet.payout → Accepted σ (leg P bet.walletId b .voidReclaim) log)

def RefundBacked (σ : State) (x : GameEntry) (earlier : List GameEntry) : Prop :=
  ∀ i op k b, x.Issues i (Stmt.operatorRollback op k b) → ∃ ref, refOf i earlier = some ref ∧
    ref.operatorId = op ∧ ref.betId = b ∧ (ref.reason = .voidRefund →
      ∀ bet, x.before.bets.row b = some bet → 0 < bet.payout → Accepted σ (reclaimOf ref) earlier)

def VoidBacked (P : Params) (σ : State) (x : GameEntry) (earlier : List GameEntry) : Prop :=
  ∀ b bet, x.before.bets.row b = some bet → bet.status ≠ .voided →
    statusIn x.after b = some .voided → Returned P σ b bet earlier

def Firm (b : ℕ) (bet : Bet) (σ : State) : Prop :=
  b < σ.bets.next ∧ ∀ x, σ.bets.row b = some x →
    x.status.stage = 2 ∧ x.walletId = bet.walletId ∧ x.payout = bet.payout

def Refundable (σ : State) (ref : RollbackRef) (w : GameWorld) : Prop :=
  ref.reason = .voidRefund → ∃ bet, Firm ref.betId bet w.state ∧
    (0 < bet.payout → Accepted σ (reclaimOf ref) w.log)

structure OrderInv (P : Params) (σ : State) (w : GameWorld) : Prop where
  rows : ∀ ref row, w.state.rollbacks.row ref = some row → Refundable σ ref w
  own : ∀ i ref, refOf i w.log = some ref → Refundable σ ref w
  confirmed : ∀ ref, Confirmed ref w.state → Accepted σ ref w.log
  closing : ∀ i ref, Closing i ref true w → Accepted σ ref w.log
  refunded : Throughout (RefundBacked σ) w.log
  voided : Throughout (VoidBacked P σ) w.log

structure Ordered (P : Params) (σ : State) (s : Stmt) (w : GameWorld) : Prop where
  about : ∀ ref, s.outboxRef = some ref → Refundable σ ref w
  ends : ∀ b, s = .finishVoid b → ∀ bet, w.state.bets.row b = some bet → Returned P σ b bet w.log

def voidOrder (P : Params) (σ : State) : Contract (system P) where
  rule := orderRule
  inv := OrderInv P σ
  stmts s := s.Issued ∧ s.OnOutbox
  pre i s w := Informed i s w ∧ Ordered P σ s w
  ended _ _ _ := True

variable {P : Params} {i j : ℕ} {w w' : GameWorld} {s : Stmt} {r : game.Reply s} {o : Oracle}
  {σ σ₁ σ₂ : State} {ref : RollbackRef} {b : ℕ} {bet : Bet} {x : GameEntry} {log : List GameEntry}

lemma Accepted.cons (h : Accepted σ ref log) : Accepted σ ref (x :: log) :=
  h.imp_right fun hpos => hpos.trans_le acks_le_cons

lemma Firm.exec (h : Firm b bet σ₁) (hexec : exec P o i s σ₁ = some (r, σ₂)) (hs : s.Issued) :
    Firm b bet σ₂ := by
  refine ⟨h.1.trans_le (exec_next hexec), fun y hy => ?_⟩
  obtain ⟨x, hx, hterms, hle⟩ := exec_later_bet hexec hs h.1 hy
  obtain ⟨hst, hwallet, hpay⟩ := h.2 x hx
  have hle₂ := y.status.stage_le
  refine ⟨by omega, ?_, ?_⟩
  · exact (congrArg NewBet.walletId hterms).trans hwallet
  · exact (exec_payout hexec hs hx hst hy).trans hpay

lemma Firm.of_bets (h : Firm b bet σ₁) (hbets : σ₂.bets = σ₁.bets) : Firm b bet σ₂ := by
  rw [Firm, hbets]
  exact h

lemma firm_of_row (h : σ₁.bets.row b = some bet) (hst : bet.status.stage = 2) : Firm b bet σ₁ := by
  refine ⟨σ₁.bets.fresh b bet h, fun x hx => ?_⟩
  obtain rfl := Option.some.inj (h.symm.trans hx)
  exact ⟨hst, rfl, rfl⟩

lemma Refundable.mono (h : Refundable σ ref w) (hlog : w'.log = x :: w.log)
    (hfirm : ∀ b bet, Firm b bet w.state → Firm b bet w'.state) : Refundable σ ref w' := by
  intro href
  obtain ⟨bet, hbet, hacc⟩ := h href
  refine ⟨bet, hfirm _ _ hbet, fun hpos => ?_⟩
  rw [hlog]
  exact (hacc hpos).cons

lemma rows_exec (h : exec P o i s σ₁ = some (r, σ₂)) {row : WalletRollback}
    (hrow : σ₂.rollbacks.row ref = some row) :
    (∃ old, σ₁.rollbacks.row ref = some old) ∨ s.outboxRef = some ref := by
  rcases exec_rollback_row h hrow with ⟨old, hold, -⟩ | rfl
  · exact .inl ⟨old, hold⟩
  · exact .inr rfl

lemma voided_exec (h : exec P o i s σ₁ = some (r, σ₂)) (hs : s.Issued)
    (hrow : σ₁.bets.row b = some bet) (hst : bet.status ≠ .voided)
    (hvoided : statusIn σ₂ b = some .voided) : s = .finishVoid b := by
  obtain ⟨y, hy, hyst⟩ := Option.map_eq_some_iff.1 hvoided
  rcases exec_betChange h b with hk | ⟨rfl, -, -⟩ | ⟨hold, hw, hnew⟩ | ⟨hold, hnew⟩ | hdel
  · rw [hk, hrow] at hy
    obtain rfl := Option.some.inj hy
    exact absurd hyst hst
  · exact absurd (σ₁.bets.fresh _ bet hrow) (lt_irrefl _)
  · obtain ⟨p, hp⟩ := hs rfl
    obtain rfl := Option.some.inj (hrow.symm.trans hold)
    obtain rfl := Option.some.inj (hnew.symm.trans hy)
    cases hp with
    | finishVoid id =>
        obtain rfl : b = id := by
          simp only [BetWhere.holds, Bool.and_eq_true, Option.all_some, decide_eq_true_eq] at hw
          exact hw.1.1.1.1.1.1.symm
        rfl
    | stampDebit => exact absurd hyst hst
    | _ => cases hyst
  · obtain ⟨p, hp⟩ := hs rfl
    obtain rfl := Option.some.inj (hrow.symm.trans hold)
    obtain rfl := Option.some.inj (hnew.symm.trans hy)
    cases hp with
    | paid => exact absurd hyst hst
    | _ => cases hyst
  · rw [hdel] at hy
    cases hy

lemma closing_answer {a : State} (hp : Informed i s w) (hi : OrderInv P σ w)
    (hcl : Closing j ref true (w.answer i s r a)) : Accepted σ ref (w.answer i s r a).log := by
  by_cases hj : j = i
  · subst hj
    obtain ⟨href, hresp⟩ := hcl
    rw [World.answer_log, lastBy_answered_self] at hresp
    cases s with
    | operatorRollback op k b =>
        obtain ⟨ref', -, -, hprimed⟩ := hp.emits op k b rfl
        have hrefs : refOf j w.log = some ref := foldBy_self.symm.trans href
        obtain rfl := Option.some.inj (hprimed.1.symm.trans hrefs)
        right
        rw [World.answer_log, acks_emit hrefs, if_pos ⟨hresp, rfl⟩]
        omega
    | _ => cases hresp
  · have hcl' : Closing j ref true w := by
      obtain ⟨href, hresp⟩ := hcl
      rw [World.answer_log, lastBy_answered (Ne.symm hj)] at hresp
      rw [World.answer_log, refOf, foldBy_answered (Ne.symm hj)] at href
      exact ⟨href, hresp⟩
    exact (hi.closing j ref hcl').cons

lemma voidOrder_step (hs : s.Issued) (hout : s.OnOutbox) (hi : OrderInv P σ w) (hp : Informed i s w)
    (hord : Ordered P σ s w) (ha : (voidOrder P σ).Answers i s w r w') : OrderInv P σ w' := by
  obtain ⟨o, a, -, hexec, rfl⟩ := ha
  have hmono {ref : RollbackRef} (h : Refundable σ ref w) : Refundable σ ref (w.answer i s r a) :=
    h.mono rfl fun b bet hf => hf.exec hexec hs
  constructor
  · intro ref row hrow
    rcases rows_exec hexec hrow with ⟨old, hold⟩ | href
    · exact hmono (hi.rows ref old hold)
    · exact hmono (hord.about ref href)
  · intro j ref href
    by_cases hj : j = i
    · subst hj
      have hself : s.outboxRef.or (refOf j w.log) = some ref := foldBy_self.symm.trans href
      cases hs : s.outboxRef with
      | some ref' =>
          rw [hs, Option.some_or, Option.some.injEq] at hself
          exact hmono (hord.about ref (hself ▸ hs))
      | none =>
          rw [hs, Option.none_or] at hself
          exact hmono (hi.own j ref hself)
    · exact hmono (hi.own j ref ((foldBy_answered (Ne.symm hj)).symm.trans href))
  · intro ref hc
    rcases confirmed_exec hexec hout hc with hc | rfl
    · exact (hi.confirmed ref hc).cons
    · exact (hi.closing i ref (hp.confirms ref rfl)).cons
  · exact fun j ref => closing_answer hp hi
  · refine ⟨?_, hi.refunded⟩
    rintro j op k b ⟨r', b', a', h⟩
    obtain ⟨rfl, rfl, -⟩ := Entry.answered.inj h
    obtain ⟨ref, hop, hb, href, -⟩ := hp.emits op k b rfl
    refine ⟨ref, href, hop, hb, fun hreason bet hbet hpos => ?_⟩
    obtain ⟨bet', hfirm, hacc⟩ := hi.own i ref href hreason
    rw [hb] at hfirm
    obtain ⟨-, -, hpay⟩ := hfirm.2 bet hbet
    exact hacc (hpay ▸ hpos)
  · refine ⟨fun b bet hrow hst hvoided => ?_, hi.voided⟩
    exact hord.ends b (voided_exec hexec hs hrow hst hvoided) bet hrow

lemma voidOrder_move (hi : OrderInv P σ w) (hm : (voidOrder P σ).Moves w w') : OrderInv P σ w' := by
  have htables := moves_tables hm
  have hrows := htables.rollbacks
  have hfirm (b : ℕ) (bet : Bet) (h : Firm b bet w.state) : Firm b bet w'.state := h.of_bets htables.bets
  obtain ⟨x, hlog, hquiet, hafter, hnew⟩ : ∃ x, w'.log = x :: w.log ∧
      (∀ i s, ¬ x.Issues i s) ∧ x.before.bets = w.state.bets ∧ x.after.bets = w.state.bets := by
    rcases hm with ⟨n, e, a, p, -, -, rfl⟩ | ⟨k, -, rfl⟩
    · exact ⟨_, rfl, by simp [Entry.Issues], rfl, htables.bets⟩
    · exact ⟨_, rfl, by simp [Entry.Issues], rfl, rfl⟩
  constructor
  · intro ref row hrow
    rw [hrows] at hrow
    exact (hi.rows ref row hrow).mono hlog hfirm
  · intro i ref href
    rw [refOf, hm.foldBy] at href
    exact (hi.own i ref href).mono hlog hfirm
  · intro ref hc
    rw [Confirmed, hrows] at hc
    rw [hlog]
    exact (hi.confirmed ref hc).cons
  · intro i ref hcl
    rw [Closing, refOf, hm.foldBy, hm.lastBy] at hcl
    rw [hlog]
    exact (hi.closing i ref hcl).cons
  · rw [hlog]
    exact ⟨fun i op k b h => absurd h (hquiet _ _), hi.refunded⟩
  · rw [hlog]
    refine ⟨fun b bet hrow hst hvoided => ?_, hi.voided⟩
    rw [hafter] at hrow
    obtain ⟨y, hy, hyst⟩ := Option.map_eq_some_iff.1 hvoided
    rw [hnew, hrow] at hy
    obtain rfl := Option.some.inj hy
    exact absurd hyst hst

section Walks

lemma pre_off (hs : s.offOutbox) : Informed i s w ∧ Ordered P σ s w := by
  refine ⟨informed_off (outboxRef_of_off hs) (emits_of_off hs), fun ref h => ?_, fun b h => ?_⟩
  · rw [outboxRef_of_off hs] at h
    cases h
  · subst h
    simp at hs

/-- Under the rule, what a leg of a void learns of its row is that the operator has accepted it. -/
lemma tells_accepted (hvoid : ref.reason.ofVoid) :
    Tells ((voidOrder P σ).withPre Informed) i ref fun w => Accepted σ ref w.log where
  stable := Contract.stable_log _ fun _ _ h => h.cons
  own s w r w' ha h := by
    obtain ⟨a, rfl⟩ := ha.world
    exact h.cons
  found w row w' hi _ ha h := by
    obtain ⟨o, a, hrule, hexec, rfl⟩ := ha
    obtain ⟨rfl, -⟩ : w.state.rollbacks.row ref = row ∧ w.state = a := by
      simpa [perform] using perform_of_ok hexec rfl
    have hread := hrule ref (by simp [legRead, hvoid])
    have hconf : Confirmed ref w.state := by
      by_cases href : refOf i w.log = some ref
      · rwa [if_pos href] at hread
      · rw [if_neg href, Bool.not_eq_true'] at hread
        exact (h.resolve_left href).resolve_right (by simp [hread])
    exact (hi.confirmed ref hconf).cons
  accepted w hi hcl := hi.closing i ref hcl

structure Carried (P : Params) (σ : State) (i : ℕ) (F : GameWorld → Prop) : Prop where
  stable : (voidOrder P σ).Stable i F
  own : ∀ s w r w', s.writesBets = false → (voidOrder P σ).Answers i s w r w' → F w → F w'

variable {F : GameWorld → Prop}

lemma Carried.idle (hF : Carried P σ i F) : (voidOrder P σ).Stable i fun w => holds i w.log = none ∧ F w :=
  stable_idle.and hF.stable

attribute [local simp] Program.await Option.forall except_forall in
lemma rollbackOnce_about (s : OperatorSession) (k : Key) (b : ℕ) (reason : Intent) (propagate : Bool)
    (amount : Option ℤ) : (rollbackOnce s k b reason propagate amount).Uses fun t : Stmt =>
      t.writesBets = false ∧ ∀ ref, t.outboxRef = some ref → ref = ⟨s.operatorId, b, reason⟩ := by
  simp [rollbackOnce, claim, bumpAttempts, acquireLease, confirm, recordEmitFailure]

attribute [local simp] Program.await Option.forall except_forall in
lemma drainOne_about (n : ℕ) (x : RollbackRef × WalletRollback) : (drainOne n x).Uses fun t : Stmt =>
    t.writesBets = false ∧ ∀ ref, t.outboxRef = some ref → ref = x.1 := by
  simp [drainOne, acquireLease, confirm]

lemma sat_about {α : Type} {p : Program game α} {Q : Except Err α → GameWorld → Prop}
    {about : RollbackRef → Prop} (h : Sat ((voidOrder P σ).withPre Informed) i Q p w)
    (hp : p.Uses fun t : Stmt => t.writesBets = false ∧ ∀ ref, t.outboxRef = some ref → about ref)
    (hF : Carried P σ i F) (hrefund : ∀ w ref, F w → about ref → Refundable σ ref w) (hw : F w) :
    Sat (voidOrder P σ) i (fun r w => Q r w ∧ F w) p w := by
  refine h.strengthen hp (fun _ _ _ h => h.1) (fun s w hs _ hw hinf => ⟨hinf, fun ref href => ?_, ?_⟩)
    hF.stable (fun s w r w' hs ha hw => hF.own s w r w' hs.1 ha hw) hw
  · exact hrefund w ref hw (hs.2 ref href)
  · rintro b rfl
    cases hs.1

lemma keeps_quiet {α : Type} {p : Program game α} (hF : Carried P σ i F)
    (hp : p.Uses fun s : Stmt => s.offOutbox ∧ s.writesBets = false) :
    Keeps (voidOrder P σ) i (fun w => holds i w.log = none ∧ F w) p := by
  refine keeps_of_uses hp hF.idle fun s w hs _ hw => ⟨pre_off hs.1, fun r w' ha _ => ⟨?_, ?_⟩⟩
  · rw [holds_answers ha, holdAfter_off (outboxRef_of_off hs.1) (emits_of_off hs.1)]
    exact hw.1
  · exact hF.own s w r w' hs.2 ha hw.2

attribute [local simp] Program.await Option.forall except_forall in
lemma ledger_reverse_quiet (wl : ℕ) (p : ReverseParams) :
    (LedgerService.reverse wl p).Uses fun s : Stmt => s.offOutbox ∧ s.writesBets = false := by
  cases hd : p.originalDirection <;>
    simp [LedgerService.reverse, hd, LedgerService.credit, LedgerService.debit]

/-- A leg of a void returns when the operator has accepted the rollback, if the wallet plays there. -/
lemma sat_reverse (wl : ℕ) (p : ReverseParams) {reason : Intent} (hF : Carried P σ i F)
    (hreason : SeamlessOperatorWallet.reverse wl p = await (.resolveSession wl) >>= fun s =>
      rollbackOnce s p.originalKey p.refId reason true (some p.amount)) (hvoid : reason.ofVoid)
    (hrefund : PlaysAtOperator P wl → ∀ w, F w → Refundable σ (leg P wl p.refId reason) w)
    (hw : holds i w.log = none ∧ F w) :
    Sat (voidOrder P σ) i (fun r w => (holds i w.log = none ∧ F w) ∧ ∀ u, r = .ok u →
      PlaysAtOperator P wl → Accepted σ (leg P wl p.refId reason) w.log) (P.wallet.reverse wl p) w := by
  have hledger (hno : ¬ PlaysAtOperator P wl) {w : GameWorld} (hi : OrderInv P σ w)
      (hw : holds i w.log = none ∧ F w) : Sat (voidOrder P σ) i (fun r w =>
        (holds i w.log = none ∧ F w) ∧ ∀ u, r = .ok u → PlaysAtOperator P wl →
          Accepted σ (leg P wl p.refId reason) w.log) (LedgerService.reverse wl p) w :=
    (keeps_quiet hF (ledger_reverse_quiet wl p) w hi hw).mono fun _ _ _ h =>
      ⟨h, fun _ _ hplays => absurd hplays hno⟩
  refine sat_iff_later.1 fun w₀ h₀ hi₀ => ?_
  have hw₀ := hF.idle.interferes h₀ hw
  unfold Params.wallet
  split
  · rename_i hmode
    have hquiet {s : Stmt} {w w' : GameWorld} {r : game.Reply s} (hs : s.offOutbox)
        (hb : s.writesBets = false) (ha : (voidOrder P σ).Answers i s w r w')
        (hw : holds i w.log = none ∧ F w) : holds i w'.log = none ∧ F w' := by
      refine ⟨?_, hF.own s w r w' hb ha hw.2⟩
      rw [holds_answers ha, holdAfter_off (outboxRef_of_off hs) (emits_of_off hs)]
      exact hw.1
    refine sat_await_bind fun w₁ h₁ hi₁ => ⟨pre_off rfl, fun r w₂ ha hi₂ => ?_⟩
    have hw₂ := hquiet rfl rfl ha (hF.idle.interferes h₁ hw₀)
    cases r with
    | error e => exact fun w₃ h₃ _ => ⟨hF.idle.interferes h₃ hw₂, fun _ h => by cases h⟩
    | ok demo =>
        obtain ⟨o, a, -, hexec, -⟩ := ha
        obtain ⟨hdemo, -⟩ : P.isDemoWallet wl = demo ∧ w₁.state = a := by
          simpa [perform] using perform_of_ok hexec rfl
        dsimp only
        cases demo with
        | true =>
            refine hledger (fun hplays => ?_) hi₂ hw₂
            rw [hplays.2] at hdemo
            cases hdemo
        | false =>
            have hplays : PlaysAtOperator P wl := ⟨hmode, hdemo⟩
            change Sat _ _ _ (SeamlessOperatorWallet.reverse wl p) w₂
            rw [hreason]
            refine sat_await_bind fun w₃ h₃ hi₃ => ⟨pre_off rfl, fun r w₄ ha _ => ?_⟩
            have hw₄ := hquiet rfl rfl ha (hF.idle.interferes h₃ hw₂)
            cases r with
            | error e => exact fun w₅ h₅ _ => ⟨hF.idle.interferes h₅ hw₄, fun _ h => by cases h⟩
            | ok s =>
                obtain ⟨o, a, -, hexec, -⟩ := ha
                obtain ⟨rfl, -⟩ : P.session wl = s ∧ w₃.state = a := by
                  simpa [perform] using perform_of_ok hexec rfl
                have honce := sat_rollbackOnce (C := (voidOrder P σ).withPre Informed) (fun _ _ _ h => h)
                  (P.session wl) p.originalKey p.refId reason true (some p.amount)
                  (tells_accepted hvoid) hw₄.1
                refine (sat_about honce (rollbackOnce_about _ _ _ _ _ _) hF ?_ hw₄.2).mono ?_
                · rintro w ref hw rfl
                  exact hrefund hplays w hw
                · rintro r w - ⟨⟨hidle, hacc⟩, hw⟩
                  exact ⟨⟨hidle, hw⟩, fun u hu _ => hacc rfl u hu⟩
  · rename_i hmode
    exact hledger (fun hplays => hmode hplays.1) hi₀ hw₀

def Firms (rows : List (ℕ × Bet)) (σ : State) : Prop := ∀ x ∈ rows, Firm x.1 x.2 σ

lemma stable_firm (b : ℕ) (bet : Bet) : (voidOrder P σ).Stable i fun w => Firm b bet w.state := by
  rintro w w' ⟨-, -, hm | ⟨j, s, r, -, hs, -, o, a, -, hexec, rfl⟩⟩ hw
  · exact hw.of_bets (moves_tables hm).bets
  · exact hw.exec hexec hs.1

lemma carried_firms (rows : List (ℕ × Bet)) : Carried P σ i fun w => Firms rows w.state where
  stable w w' h hw x hx := stable_firm x.1 x.2 w w' h (hw x hx)
  own s w r w' hs ha hw x hx := by
    obtain ⟨o, a, -, hexec, rfl⟩ := ha
    exact (hw x hx).of_bets (exec_bets hexec hs)

lemma Carried.and_log (hF : Carried P σ i F) {p : List GameEntry → Prop}
    (hp : ∀ x log, p log → p (x :: log)) : Carried P σ i fun w => F w ∧ p w.log where
  stable := hF.stable.and (Contract.stable_log p hp)
  own s w r w' hs ha hw := by
    refine ⟨hF.own s w r w' hs ha hw.1, ?_⟩
    obtain ⟨a, rfl⟩ := ha.world
    exact hp _ _ hw.2

lemma sat_performVoidReversals (hF : Carried P σ i F) (hfirm : ∀ w, F w → Firm b bet w.state)
    (hw : holds i w.log = none ∧ F w) :
    Sat (voidOrder P σ) i (fun r w => (holds i w.log = none ∧ F w) ∧ ∀ u, r = .ok u → Returned P σ b bet w.log)
      (BetsService.performVoidReversals P b bet) w := by
  unfold BetsService.performVoidReversals
  split
  · have hreclaim := sat_reverse bet.walletId
      ⟨.payout b, .voidReclaim b, bet.payout, .credit, .payoutCredit, b, none⟩ hF rfl rfl
      (fun _ _ _ h => by cases h) hw
    refine sat_bind (hreclaim.mono ?_)
    rintro (e | u) w₁ - ⟨hw₁, hacc⟩
    · exact ⟨hw₁, fun _ h => by cases h⟩
    · have hF' := hF.and_log (p := fun log => PlaysAtOperator P bet.walletId →
        Accepted σ (leg P bet.walletId b .voidReclaim) log) fun x log h hplays => (h hplays).cons
      have hrefund := sat_reverse bet.walletId
        ⟨.debit bet.slot, .voidRefund b, bet.amount, .debit, .refund, b, none⟩ hF' rfl rfl
        (fun hplays w h _ => ⟨bet, hfirm w h.1, fun _ => h.2 hplays⟩) ⟨hw₁.1, hw₁.2, hacc u rfl⟩
      refine hrefund.mono ?_
      rintro r w₂ - ⟨⟨hidle, hF₂, hreclaimed⟩, hacc₂⟩
      exact ⟨⟨hidle, hF₂⟩, fun u hu hplays => ⟨hacc₂ u hu hplays, fun _ => hreclaimed hplays⟩⟩
  · rename_i hpos
    have hrefund := sat_reverse bet.walletId
      ⟨.debit bet.slot, .voidRefund b, bet.amount, .debit, .refund, b, none⟩ hF rfl rfl
      (fun hplays w h _ => ⟨bet, hfirm w h, fun h => absurd h hpos⟩) hw
    refine hrefund.mono ?_
    rintro r w₁ - ⟨hw₁, hacc⟩
    exact ⟨hw₁, fun u hu hplays => ⟨hacc u hu hplays, fun h => absurd h hpos⟩⟩

lemma pre_finish (hfirm : Firm b bet w.state) (hret : Returned P σ b bet w.log) :
    Informed i (.finishVoid b) w ∧ Ordered P σ (.finishVoid b) w := by
  refine ⟨informed_off rfl rfl, nofun, fun b' h bet' hrow => ?_⟩
  obtain rfl : b = b' := by simpa using h
  obtain ⟨-, hwallet, hpay⟩ := hfirm.2 bet' hrow
  rw [Returned, hwallet, hpay]
  exact hret

lemma stable_returned (b : ℕ) (bet : Bet) : (voidOrder P σ).Stable i fun w => Returned P σ b bet w.log :=
  Contract.stable_log _ fun _ _ h hplays => ⟨(h hplays).1.cons, fun hpos => ((h hplays).2 hpos).cons⟩

variable {rows : List (ℕ × Bet)}

lemma sat_finish (hmem : (b, bet) ∈ rows) (hw : holds i w.log = none ∧ Firms rows w.state)
    (hret : Returned P σ b bet w.log) :
    Sat (voidOrder P σ) i (fun _ w => holds i w.log = none ∧ Firms rows w.state)
      (await (.finishVoid b)) w := by
  have hF := carried_firms (P := P) (σ := σ) (i := i) rows
  refine sat_await fun w₁ h₁ hi₁ => ?_
  have hw₁ := hF.idle.interferes h₁ hw
  have hret₁ := (stable_returned b bet).interferes h₁ hret
  refine ⟨pre_finish (hw₁.2 _ hmem) hret₁, fun r w₂ ha _ w₃ h₃ _ => hF.idle.interferes h₃ ⟨?_, ?_⟩⟩
  · exact (holds_answers ha).trans hw₁.1
  · intro x hx
    obtain ⟨o, a, -, hexec, rfl⟩ := ha
    exact (hw₁.2 x hx).exec hexec fun _ => ⟨.voidBet, .finishVoid b⟩

lemma sat_void {β : Type} {q : Program game β} {T : Except Err β → GameWorld → Prop}
    (hmem : (b, bet) ∈ rows) (hw : holds i w.log = none ∧ Firms rows w.state)
    (hq : ∀ w, OrderInv P σ w → holds i w.log = none ∧ Firms rows w.state → Returned P σ b bet w.log →
      Sat (voidOrder P σ) i T q w)
    (herr : ∀ e w, holds i w.log = none ∧ Firms rows w.state → T (.error e) w) :
    Sat (voidOrder P σ) i T (BetsService.performVoidReversals P b bet >>= fun _ => q) w := by
  refine sat_bind ((sat_performVoidReversals (carried_firms rows) (fun w h => h _ hmem) hw).mono ?_)
  rintro (e | u) w₁ hi₁ ⟨hw₁, hret⟩
  · exact herr e w₁ hw₁
  · exact hq w₁ hi₁ hw₁ (hret u rfl)

lemma keeps_reconcileVoidingBets (l : ℕ) : Keeps (voidOrder P σ) i (fun w => holds i w.log = none)
    (BetsService.reconcileVoidingBets P l) := by
  refine fun w _ hidle => sat_await_bind fun w₁ h₁ hi₁ => ⟨pre_off rfl, fun r w₂ ha hi₂ => ?_⟩
  have hidle₂ : holds i w₂.log = none := (holds_answers ha).trans (stable_idle.interferes h₁ hidle)
  match r with
  | .error e => exact fun w₃ h₃ _ => stable_idle.interferes h₃ hidle₂
  | .ok rows =>
      obtain ⟨hsame, hrows⟩ := answers_findBets ha
      have hfirms : Firms rows w₂.state := by
        intro x hx
        obtain ⟨hrow, hw⟩ := hrows x.1 x.2 hx
        have hst : x.2.status = .voiding := by simpa [BetWhere.holds] using hw
        rw [hsame]
        exact firm_of_row hrow (by rw [hst]; rfl)
      have hF := carried_firms (P := P) (σ := σ) (i := i) rows
      have hloop : Keeps (voidOrder P σ) i (fun w => holds i w.log = none ∧ Firms rows w.state)
          (Program.loop (BetsService.reconcileVoidOne P) 0 rows) := by
        refine keeps_loop hF.idle 0 fun x hx n => keeps_bind (keeps_attempt fun w _ hw => ?_)
          fun _ => keeps_ret hF.idle _
        exact sat_void hx hw (fun w _ hw hret => sat_finish hx hw hret) fun _ _ h => h
      exact (hloop w₂ hi₂ ⟨hidle₂, hfirms⟩).mono fun _ _ _ h => h.1

lemma keeps_claimVoid {st : BetStatus} (hst : st = .voiding ∨ st = .busted ∨ st = .cashedOut) :
    Keeps (voidOrder P σ) i (fun w => holds i w.log = none ∧ Firms rows w.state)
      (BetsService.claimVoid b st) := by
  have hF := carried_firms (P := P) (σ := σ) (i := i) rows
  unfold BetsService.claimVoid
  split
  · exact keeps_ret hF.idle 1
  · rename_i hne
    refine fun w _ hw => sat_await fun w₁ h₁ _ => ⟨pre_off rfl, fun r w₂ ha _ w₃ h₃ _ => ?_⟩
    have hw₁ := hF.idle.interferes h₁ hw
    refine hF.idle.interferes h₃ ⟨(holds_answers ha).trans hw₁.1, fun x hx => ?_⟩
    obtain ⟨o, a, -, hexec, rfl⟩ := ha
    exact (hw₁.2 x hx).exec hexec fun _ => ⟨.voidBet, .claimVoid b st (hst.resolve_left hne)⟩

lemma keeps_voidFound (hst : bet.status = .voiding ∨ bet.status = .busted ∨ bet.status = .cashedOut)
    (hmem : (b, bet) ∈ rows) :
    Keeps (voidOrder P σ) i (fun w => holds i w.log = none ∧ Firms rows w.state) (voidFound P b bet) := by
  have hF := carried_firms (P := P) (σ := σ) (i := i) rows
  refine keeps_bind (keeps_claimVoid hst) fun claim => ?_
  split
  · exact keeps_raise hF.idle _
  · refine fun w _ hw => sat_void hmem hw (fun w₁ _ hw₁ hret => ?_) fun _ _ h => h
    refine sat_bind ((sat_finish hmem hw₁ hret).mono ?_)
    rintro (e | n) w₂ - hw₂
    · exact hw₂
    · exact fun w₃ h₃ _ => hF.idle.interferes h₃ hw₂

lemma keeps_off {α : Type} {p : Program game α} (hp : p.Uses fun s : Stmt => s.offOutbox) :
    Keeps (voidOrder P σ) i (fun w => holds i w.log = none) p := by
  refine keeps_of_uses hp stable_idle fun s w hs _ hidle => ⟨pre_off hs, fun r w' ha _ => ?_⟩
  rw [holds_answers ha, holdAfter_off (outboxRef_of_off hs) (emits_of_off hs)]
  exact hidle

lemma keeps_voidBet (op b : ℕ) : Keeps (voidOrder P σ) i (fun w => holds i w.log = none)
    (BetsService.voidBet P op b) := by
  refine Game.keeps_voidBet op stable_idle (keeps_off (await_uses rfl)) fun bet w hi hidle hrow hst => ?_
  have hfirms : Firms [(b, bet)] w.state := by
    intro x hx
    obtain rfl := List.mem_singleton.1 hx
    refine firm_of_row hrow ?_
    rcases hst with h | h | h <;> rw [h] <;> rfl
  exact (keeps_voidFound hst List.mem_cons_self w hi ⟨hidle, hfirms⟩).mono fun _ _ _ h => h.1

lemma stable_refundable (ref : RollbackRef) : (voidOrder P σ).Stable i (Refundable σ ref) := by
  intro w w' h hw href
  obtain ⟨bet, hfirm, hacc⟩ := hw href
  have hlog := Contract.stable_log (C := voidOrder P σ) (i := i)
    (fun log => 0 < bet.payout → Accepted σ (reclaimOf ref) log) fun _ _ h hpos => (h hpos).cons
  exact ⟨bet, stable_firm _ _ w w' h hfirm, hlog w w' h hacc⟩

lemma carried_refundable (about : RollbackRef → Prop) :
    Carried P σ i fun w => ∀ ref, about ref → Refundable σ ref w where
  stable w w' h hw ref href := stable_refundable ref w w' h (hw ref href)
  own s w r w' hs ha hw ref href := by
    obtain ⟨o, a, -, hexec, rfl⟩ := ha
    exact (hw ref href).mono rfl fun b bet hf => hf.of_bets (exec_bets hexec hs)

lemma keeps_drainPending (mode : Bool) (l : ℕ) : Keeps (voidOrder P σ) i (fun w => holds i w.log = none)
    (drainPending mode l) := by
  refine sat_drainPending (fun s w _ hs => pre_off hs) mode l fun rows t w₁ w₂ hi₁ hi₂ ha hw₂ => ?_
  obtain ⟨hsame, hrows⟩ := answers_findOwedRollbacks ha
  let about (ref : RollbackRef) : Prop := ∃ x ∈ rows, ref = x.1
  have huses : (Program.loop drainOne 0 rows).Uses fun t : Stmt =>
      t.writesBets = false ∧ ∀ ref, t.outboxRef = some ref → about ref :=
    uses_loop 0 fun n x hx => (drainOne_about n x).mono fun t ht => ⟨ht.1, fun ref href => ⟨x, hx, ht.2 ref href⟩⟩
  have hrefund (ref : RollbackRef) : about ref → Refundable σ ref w₂ := by
    rintro ⟨x, hx, rfl⟩
    refine hi₂.rows x.1 x.2 ?_
    rw [hsame]
    exact (hrows x.1 x.2 hx).1
  have hloop := idle_drainRows (C := (voidOrder P σ).withPre Informed) (fun _ _ _ h => h)
    (fun x hx => (hrows x.1 x.2 hx).2) 0 w₂ hi₂ hw₂
  refine (sat_about hloop huses (carried_refundable about) (fun w ref hw href => hw ref href) hrefund).mono ?_
  exact fun _ _ _ h => h.1.1

lemma keeps_rollbackOnce (s : OperatorSession) (k : Key) (b : ℕ) (reason : Intent) (propagate : Bool)
    (amount : Option ℤ) (hvoid : reason.ofVoid = false) :
    Keeps (voidOrder P σ) i (fun w => holds i w.log = none) (rollbackOnce s k b reason propagate amount) := by
  intro w hi hidle
  have hF : Carried P σ i fun _ => True := ⟨fun _ _ _ _ => trivial, fun _ _ _ _ _ _ _ => trivial⟩
  have honce := idle_rollbackOnce (C := (voidOrder P σ).withPre Informed) (fun _ _ _ h => h) s k b reason
    propagate amount w hi hidle
  refine (sat_about honce (rollbackOnce_about _ _ _ _ _ _) hF ?_ trivial).mono fun _ _ _ h => h.1
  rintro w ref - rfl href
  simp only at href
  rw [href] at hvoid
  cases hvoid

lemma parts_voidOrder : Parts P fun _ p => Keeps (voidOrder P σ) i (fun w => holds i w.log = none) p :=
  parts_of_reversals (keeps_compositional stable_idle) keeps_off keeps_rollbackOnce keeps_voidBet
    keeps_reconcileVoidingBets (keeps_drainPending _)

end Walks

lemma voidOrder_sound : (voidOrder P σ).Sound :=
  sound_of_uses ((parts_uses (fun _ => Stmt.issued_of_plain) fun _ _ => Part.Issues.issued).uses_and
      parts_onOutbox) (fun _ => stable_idle) (fun _ => parts_voidOrder)
    (fun _ _ _ _ _ hs hi hp ha => voidOrder_step hs.1 hs.2 hi hp.1 hp.2 ha)
    (fun _ _ => voidOrder_move) (fun _ _ _ => foldBy_of_absent) (fun _ _ _ _ _ => trivial)
    fun _ _ _ _ _ _ _ _ => trivial

/-- The refunds that are noted down at the start belong to settled bets whose payout has been taken back. -/
def RefundsFollow (σ : State) : Prop := ∀ ref row, σ.rollbacks.row ref = some row →
  ref.reason = .voidRefund → ∃ bet, σ.bets.row ref.betId = some bet ∧ bet.status.stage = 2 ∧
    (0 < bet.payout → Confirmed (reclaimOf ref) σ)

lemma orderInv_initial (hσ : RefundsFollow σ) : OrderInv P σ ⟨σ, []⟩ := by
  constructor
  · intro ref row hrow href
    obtain ⟨bet, hbet, hst, hacc⟩ := hσ ref row hrow href
    exact ⟨bet, firm_of_row hbet hst, fun hpos => .inl (hacc hpos)⟩
  · nofun
  · exact fun ref h => .inl h
  · rintro i ref ⟨h, -⟩
    cases h
  · trivial
  · trivial

section Transactions

lemma exists_acceptedFor {later : List GameEntry} (hσ : OwnRows σ) (hi : OwnInv σ w)
    (hlog : w.log = later ++ log) (h : Accepted σ ref log) : ∃ k, AcceptedFor σ ref k log ∧ Own σ ref k w := by
  rcases h with hconf | hacks
  · obtain ⟨row, hrow, hst⟩ := Option.any_eq_true _ _ |>.1 hconf
    exact ⟨_, .inl ⟨row, hrow, by simpa using hst, rfl⟩, hσ.own hrow⟩
  · obtain ⟨later', i, op, k, b, before, after, earlier, rfl, href⟩ := exists_of_acks_pos hacks
    rw [← List.append_assoc] at hlog
    obtain ⟨rfl, rfl, hown⟩ := hi.emission hlog ⟨_, _, _, rfl⟩ href
    exact ⟨k, .inr ⟨later', i, before, after, earlier, href, rfl⟩, hown⟩

lemma AcceptedFor.accepted {k : Key} (h : AcceptedFor σ ref k log) : Accepted σ ref log := by
  rcases h with ⟨row, hrow, hst, -⟩ | ⟨later, i, before, after, earlier, href, rfl⟩
  · exact .inl ((confirmed_of_row hrow).2 hst)
  · refine .inr (lt_of_lt_of_le ?_ acks_le_append)
    rw [acks_emit href, if_pos ⟨rfl, rfl⟩]
    omega

end Transactions

theorem refund_follows_reclaim {c : GameConfig} (hown : OwnRows σ) (hσ : RefundsFollow σ)
    (hc : orderRule.Reaches (system P) (Config.initial σ) c) (later : List GameEntry) (x : GameEntry)
    (earlier : List GameEntry) (hlog : c.world.log = later ++ x :: earlier) :
    RefundedAfter σ x earlier ∧ VoidedAfter P σ x earlier := by
  have hgood : c.Good (voidOrder P σ) :=
    (Config.good_initial (orderInv_initial hσ)).reaches voidOrder_sound hc
  have hi : OwnInv σ c.world := ownInv_reaches hown hc
  have hlog' : c.world.log = (later ++ [x]) ++ earlier := by simpa using hlog
  have hreclaim {ref : RollbackRef} (h : Accepted σ ref earlier) (hreason : ref.reason = .voidReclaim) :
      AcceptedFor σ ref (.payout ref.betId) earlier := by
    obtain ⟨k, hk, hkown⟩ := exists_acceptedFor hown hi hlog' h
    rw [Own, if_pos hreason] at hkown
    exact hkown ▸ hk
  constructor
  · intro i op k b hx
    obtain ⟨ref, href, rfl, rfl, hbacked⟩ := hgood.inv.refunded.split hlog i op k b hx
    refine ⟨ref, href, rfl, rfl, fun hreason bet hbet => ⟨?_, fun hpos => hreclaim (hbacked hreason bet hbet hpos) rfl⟩⟩
    obtain ⟨-, -, hk⟩ := hi.emission hlog hx href
    exact hi.debit hk (by simp [hreason]) (.of_mem (by simp [hlog]) hbet)
  · intro b bet hbet hst hvoided hplays
    obtain ⟨hrefund, hreclaimed⟩ := hgood.inv.voided.split hlog b bet hbet hst hvoided hplays
    refine ⟨?_, fun hpos => hreclaim (hreclaimed hpos) rfl⟩
    obtain ⟨k, hk, hkown⟩ := exists_acceptedFor hown hi hlog' hrefund
    rw [hi.debit hkown (by simp) (.of_mem (by simp [hlog]) hbet)] at hk
    exact hk

section Runs

open Scenario

def won : State :=
  { staked .completed .active with
    bets := (∅ : Records Bet Bet.slot).create
      { Scenario.bet .cashedOut with payout := 200, operatorId := some 1 } rfl }

def reclaimRef : RollbackRef := ⟨1, 0, .voidReclaim⟩

def hungReclaim : List (Machine.Label Event Oracle) :=
  .env (.call (.voidBet 1 0)) :: acts 0 7 ++ .env (.call (.reconcileVoidingBets 10)) :: acts 1 14 ++
    .act 0 (.timedOut false) :: acts 0 1

instance (σ : State) (ref : RollbackRef) (log : List GameEntry) : Decidable (Accepted σ ref log) :=
  inferInstanceAs (Decidable (_ ∨ _))

/-- A void hangs in the rollback of the payout; the finaliser sees its lease, returns the stake and calls
the bet voided; then the operator turns out not to have taken the payout back. -/
theorem voided_without_reclaim : ∃ c : GameConfig,
    Rule.free.Reaches (system (params true false)) (Config.initial won) c ∧
      statusIn c.world.state 0 = some .voided ∧ (∀ k, ¬ AcceptedFor won reclaimRef k c.world.log) ∧
      ∃ later before after earlier, c.world.log = later ++
          .answered 1 (Stmt.operatorRollback 1 (.debit slot) 0) (.ok ()) before after :: earlier ∧
        refOf 1 earlier = some refundRef := by
  have hrun : (system (params true false)).run (Config.initial won) hungReclaim = some _ := rfl
  refine ⟨_, Rule.reaches_of_run Rule.obeys_free hrun, ?_, fun k hk => ?_, [_, _, _, _], _, _, _, rfl, ?_⟩
  · decide
  · exact absurd hk.accepted (by decide)
  · decide

/-- The void of a won bet takes the payout back and then returns the stake. -/
theorem reclaim_then_refund : ∃ c : GameConfig, statusIn c.world.state 0 = some .voided ∧
    ∀ later x earlier, c.world.log = later ++ x :: earlier →
      RefundedAfter won x earlier ∧ VoidedAfter (params true false) won x earlier := by
  have hrun : (system (params true false)).run (Config.initial won)
      (.env (.call (.voidBet 1 0)) :: acts 0 9 ++ acts 0 8) = some _ := rfl
  have hown : OwnRows won := fun ref row hrow => by cases hrow
  have hσ : RefundsFollow won := fun ref row hrow => by cases hrow
  exact ⟨_, by decide, fun later x earlier => refund_follows_reclaim hown hσ
    (Rule.reaches_of_run (R := orderRule) (by decide) hrun) later x earlier⟩

end Runs

end VaultRun.Safety.VoidOrder
