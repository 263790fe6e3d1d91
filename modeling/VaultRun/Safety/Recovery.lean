import VaultRun.Game.Unhindered
import VaultRun.Game.Lifecycle
import VaultRun.Game.Scenario

/-!
The recovery passes, run to their end with nothing failing: each leaves none of the bets that it is for, and touches
no other.
-/

namespace VaultRun.Safety.Recovery

open VaultRun.Concurrency VaultRun.Data VaultRun.Game Program BetsService GameEngineService

variable {P : Params} {i : ℕ} {σ σ₁ σ₂ : State} {target : ℕ → Option Bet} {x : ℕ × Bet} {rem : List (ℕ × Bet)}

structure Steady (σ σ' : State) : Prop where
  rounds : σ'.rounds = σ.rounds
  nodes : σ'.nodes = σ.nodes
  now : σ'.now = σ.now

namespace Steady

lemma refl (σ : State) : Steady σ σ := ⟨rfl, rfl, rfl⟩

lemma trans (h : Steady σ σ₁) (h' : Steady σ₁ σ₂) : Steady σ σ₂ :=
  ⟨h'.rounds.trans h.rounds, h'.nodes.trans h.nodes, h'.now.trans h.now⟩

lemma of_books (h : SameBooks σ σ₁) : Steady σ σ₁ := ⟨h.rounds, h.nodes, h.now⟩

lemma of_credits {w : ℕ} {a : ℤ} {ty : LedgerType} {key : Key} {ref : ℕ} (h : Credits P σ σ₁ w a ty key ref) :
    Steady σ σ₁ :=
  ⟨h.rounds, h.nodes, h.now⟩

lemma update (h : Steady σ σ₁) (w : BetWhere) (d : BetData) : Steady σ (σ₁.updateBets w d) := h.trans ⟨rfl, rfl, rfl⟩

end Steady

/-- A loop over bets has come so far: those that are left are as they were, and every other is as it is going to be. -/
structure Partway (σ : State) (target : ℕ → Option Bet) (rem : List (ℕ × Bet)) (σ₁ : State) : Prop
    extends Sweep σ.bets.toTable target rem σ₁.bets.toTable where
  steady : Steady σ σ₁

namespace Partway

lemma start {p : ℕ → Bet → Bool} {found : List (ℕ × Bet)} (hfound : found.Sublist (σ.bets.findMany p))
    (h : ∀ b, b ∉ found.map (·.1) → target b = σ.bets.row b) : Partway σ target found σ :=
  ⟨.start hfound h, .refl σ⟩

lemma step (h : Partway σ target (x :: rem) σ₁) (hself : σ₂.bets.row x.1 = target x.1)
    (hothers : ∀ c, c ≠ x.1 → σ₂.bets.row c = σ₁.bets.row c) (hsteady : Steady σ₁ σ₂) : Partway σ target rem σ₂ :=
  ⟨h.toSweep.step hself hothers, h.steady.trans hsteady⟩

end Partway

/-- A credit that is owed for a bet, under a key of its own. -/
structure Pay where
  key : ℕ → Key
  inj : Function.Injective key
  type : LedgerType
  amount : Bet → ℤ

namespace Pay

def restartRefund : Pay := ⟨.restartRefund, fun _ _ => Key.restartRefund.inj, .refund, (·.amount)⟩

def payout : Pay := ⟨.payout, fun _ _ => Key.payout.inj, .payoutCredit, (·.payout)⟩

end Pay

/-- There is something to pay, and a wallet to pay it to. -/
def Payable (P : Params) (σ : State) (pay : Pay) (y : Bet) : Prop :=
  0 < pay.amount y ∧ (P.onLedger y.walletId → σ.Solvent y.walletId)

/-- What the credits for the bets that are due make of the ledger, with these still to come. -/
structure Paid (P : Params) (σ : State) (pay : Pay) (due : ℕ → Bet → Prop) (rem : List (ℕ × Bet)) (σ₁ : State) :
    Prop where
  others : ∀ k, (∀ b y, k = pay.key b → σ.bets.row b = some y → due b y → b ∈ rem.map (·.1)) →
    σ₁.ledger.row k = σ.ledger.row k
  kept : ∀ k, σ.ledger.row k ≠ none → σ₁.ledger.row k = σ.ledger.row k
  posted : ∀ b y, σ.bets.row b = some y → due b y → b ∉ rem.map (·.1) → P.onLedger y.walletId →
    σ.ledger.row (pay.key b) = none →
    ∃ balance, σ₁.ledger.row (pay.key b) = some ⟨y.walletId, pay.type, pay.amount y, balance, some b⟩
  solvent : ∀ w, σ.Solvent w → σ₁.Solvent w

namespace Paid

variable {pay : Pay} {due : ℕ → Bet → Prop}

lemma start {found : List (ℕ × Bet)} (h : ∀ b y, σ.bets.row b = some y → due b y → b ∈ found.map (·.1)) :
    Paid P σ pay due found σ :=
  ⟨fun _ _ => rfl, fun _ _ => rfl, fun b y hy hdue hnot => absurd (h b y hy hdue) hnot, fun _ hw => hw⟩

lemma same (h : Paid P σ pay due rem σ₁) (hledger : σ₂.ledger = σ₁.ledger) (hwallets : σ₂.wallets = σ₁.wallets) :
    Paid P σ pay due rem σ₂ where
  others k hk := by rw [hledger, h.others k hk]
  kept k hk := by rw [hledger, h.kept k hk]
  posted b y hy hdue hb hon hnone := by
    rw [hledger]
    exact h.posted b y hy hdue hb hon hnone
  solvent w hw := by
    obtain ⟨z, hz, hle⟩ := h.solvent w hw
    exact ⟨z, by rw [hwallets, hz], hle⟩

lemma update (h : Paid P σ pay due rem σ₁) (w : BetWhere) (d : BetData) :
    Paid P σ pay due rem (σ₁.updateBets w d) := h.same rfl rfl

lemma skip (h : Paid P σ pay due (x :: rem) σ₁) (hx : σ.bets.row x.1 = some x.2) (hnot : ¬ due x.1 x.2) :
    Paid P σ pay due rem σ₁ where
  others k hk := by
    refine h.others k fun b y hkey hy hdue => ?_
    exact List.mem_cons_of_mem _ (hk b y hkey hy hdue)
  kept k hk := h.kept k hk
  posted b y hy hdue hb hon hnone := by
    refine h.posted b y hy hdue (fun hmem => ?_) hon hnone
    rcases List.mem_cons.1 hmem with rfl | hmem
    · obtain rfl := Option.some.inj (hx.symm.trans hy)
      exact hnot hdue
    · exact hb hmem
  solvent w hw := h.solvent w hw

lemma credit (h : Paid P σ pay due (x :: rem) σ₁) (hx : σ.bets.row x.1 = some x.2) (hdue : due x.1 x.2)
    (hnot : x.1 ∉ rem.map (·.1))
    (hc : Credits P σ₁ σ₂ x.2.walletId (pay.amount x.2) pay.type (pay.key x.1) x.1) : Paid P σ pay due rem σ₂ where
  others k hk := by
    have hne : k ≠ pay.key x.1 := by
      rintro rfl
      exact hnot (hk x.1 x.2 rfl hx hdue)
    rw [hc.others k hne]
    exact h.others k fun b y hkey hy hb => List.mem_cons_of_mem _ (hk b y hkey hy hb)
  kept k hk := by
    have hrow := h.kept k hk
    by_cases heq : k = pay.key x.1
    · subst heq
      rw [hc.kept (by rw [hrow]; exact hk), hrow]
    · rw [hc.others k heq, hrow]
  posted b y hy hb hrem hon hnone := by
    by_cases heq : b = x.1
    · subst heq
      obtain rfl := Option.some.inj (hx.symm.trans hy)
      refine hc.posted hon ?_
      rw [h.others _ fun c z hkey _ _ => by obtain rfl := pay.inj hkey; simp, hnone]
    · rw [hc.others _ fun hkey => heq (pay.inj hkey)]
      refine h.posted b y hy hb (fun hmem => ?_) hon hnone
      rcases List.mem_cons.1 hmem with hmem | hmem
      · exact heq hmem
      · exact hrem hmem
  solvent w hw := hc.solvent w (h.solvent w hw)

end Paid

def operatorOf (P : Params) (y : Bet) : ℕ := (P.session y.walletId).operatorId

/-- What the credits for the bets that are due make of the operators, with these still to come. -/
structure OperatorPaid (P : Params) (σ : State) (pay : Pay) (due : ℕ → Bet → Prop) (rem : List (ℕ × Bet)) (σ₁ : State) :
    Prop where
  won : ∀ b y, σ.bets.row b = some y → due b y → b ∉ rem.map (·.1) → P.onLedger y.walletId = false →
    σ.operator (operatorOf P y) (pay.key b) = none →
    σ₁.operator (operatorOf P y) (pay.key b) = some ⟨y.walletId, pay.amount y, b, true⟩
  kept : ∀ o k t, σ.operator o k = some t → t.applied → σ₁.operator o k = some t
  others : ∀ o k, (∀ b y, σ.bets.row b = some y → due b y → P.onLedger y.walletId = false → o = operatorOf P y →
    k = pay.key b → b ∈ rem.map (·.1)) → σ₁.operator o k = σ.operator o k
  outbox : σ₁.rollbacks = σ.rollbacks

namespace OperatorPaid

variable {pay : Pay} {due : ℕ → Bet → Prop}

lemma start {found : List (ℕ × Bet)} (h : ∀ b y, σ.bets.row b = some y → due b y → b ∈ found.map (·.1)) :
    OperatorPaid P σ pay due found σ :=
  ⟨fun b y hy hdue hnot => absurd (h b y hy hdue) hnot, fun _ _ _ h _ => h, fun _ _ _ => rfl, rfl⟩

lemma same (h : OperatorPaid P σ pay due rem σ₁) (hoperator : σ₂.operator = σ₁.operator)
    (hrollbacks : σ₂.rollbacks = σ₁.rollbacks) : OperatorPaid P σ pay due rem σ₂ := by
  constructor
  · rw [hoperator]
    exact h.won
  · rw [hoperator]
    exact h.kept
  · rw [hoperator]
    exact h.others
  · rw [hrollbacks, h.outbox]

lemma skip (h : OperatorPaid P σ pay due (x :: rem) σ₁) (hx : σ.bets.row x.1 = some x.2) (hnot : ¬ due x.1 x.2) :
    OperatorPaid P σ pay due rem σ₁ where
  won b y hy hdue hb := by
    refine h.won b y hy hdue fun hmem => ?_
    rcases List.mem_cons.1 hmem with rfl | hmem
    · obtain rfl := Option.some.inj (hx.symm.trans hy)
      exact hnot hdue
    · exact hb hmem
  kept := h.kept
  others o k hk := h.others o k fun b y hy hdue hoff ho hkey => List.mem_cons_of_mem _ (hk b y hy hdue hoff ho hkey)
  outbox := h.outbox

lemma credit (h : OperatorPaid P σ pay due (x :: rem) σ₁) (hx : σ.bets.row x.1 = some x.2) (hdue : due x.1 x.2)
    (hnot : x.1 ∉ rem.map (·.1)) (hw : Wins P σ₁ σ₂ x.2.walletId (pay.amount x.2) (pay.key x.1) x.1) :
    OperatorPaid P σ pay due rem σ₂ where
  won b y hy hb hrem hoff hnone := by
    by_cases heq : b = x.1
    · subst heq
      obtain rfl := Option.some.inj (hx.symm.trans hy)
      refine hw.won hoff ((h.others _ _ fun c z _ _ _ _ hkey => ?_).trans hnone)
      obtain rfl := pay.inj hkey
      simp
    · rw [hw.others _ _ fun hkey => heq (pay.inj hkey.2.2)]
      refine h.won b y hy hb (fun hmem => ?_) hoff hnone
      rcases List.mem_cons.1 hmem with hmem | hmem
      · exact heq hmem
      · exact hrem hmem
  kept o k t ht happlied := hw.kept o k t (h.kept o k t ht happlied) happlied
  others o k hk := by
    rw [hw.others o k fun hkey => hnot (hk x.1 x.2 hx hdue hkey.1 hkey.2.1 hkey.2.2)]
    exact h.others o k fun b y hy hb hoff ho hkey => List.mem_cons_of_mem _ (hk b y hy hb hoff ho hkey)
  outbox := hw.outbox.trans h.outbox

end OperatorPaid

lemma Paid.of_node {pay : Pay} {due : ℕ → Bet → Prop} {n : ℕ} {f : Node → Node}
    (h : Paid P (σ.updateNode n f) pay due rem σ₁) : Paid P σ pay due rem σ₁ :=
  ⟨h.others, h.kept, h.posted, h.solvent⟩

lemma OperatorPaid.of_node {pay : Pay} {due : ℕ → Bet → Prop} {n : ℕ} {f : Node → Node}
    (h : OperatorPaid P (σ.updateNode n f) pay due rem σ₁) : OperatorPaid P σ pay due rem σ₁ :=
  ⟨h.won, h.kept, h.others, h.outbox⟩

/-- The outbox row under which the operator is told to give the stake of a bet back. -/
def refundOf (P : Params) (x : ℕ × Bet) : RollbackRef := ⟨operatorOf P x.2, x.1, .restartRefund⟩

/-- What the reversals of the stakes of these bets make of the operators, with these still to come. -/
structure OperatorRefunded (P : Params) (σ : State) (found rem : List (ℕ × Bet)) (σ₁ : State) : Prop where
  back : ∀ x ∈ found, x.1 ∉ rem.map (·.1) → P.onLedger x.2.walletId = false → ¬ Underway (refundOf P x) σ →
    Confirmed (refundOf P x) σ₁ ∧ σ₁.operator (operatorOf P x.2) (.debit x.2.slot) =
      (σ.operator (operatorOf P x.2) (.debit x.2.slot)).map ({ · with applied := false })
  left : ∀ x ∈ found, x.1 ∉ rem.map (·.1) → P.onLedger x.2.walletId = false → Underway (refundOf P x) σ →
    Underway (refundOf P x) σ₁ ∧
      σ₁.operator (operatorOf P x.2) (.debit x.2.slot) = σ.operator (operatorOf P x.2) (.debit x.2.slot)
  transactions : ∀ o k, (∀ x ∈ found, P.onLedger x.2.walletId = false → o = operatorOf P x.2 → k = .debit x.2.slot →
    x.1 ∈ rem.map (·.1)) → σ₁.operator o k = σ.operator o k
  rows : ∀ ref, (∀ x ∈ found, P.onLedger x.2.walletId = false → ref = refundOf P x → x.1 ∈ rem.map (·.1)) →
    σ₁.rollbacks.row ref = σ.rollbacks.row ref

namespace OperatorRefunded

variable {found : List (ℕ × Bet)}

lemma start : OperatorRefunded P σ found found σ :=
  ⟨fun _ hx hnot => absurd (List.mem_map_of_mem hx) hnot, fun _ hx hnot => absurd (List.mem_map_of_mem hx) hnot,
    fun _ _ _ => rfl, fun _ _ => rfl⟩

lemma same (h : OperatorRefunded P σ found rem σ₁) (hoperator : σ₂.operator = σ₁.operator)
    (hrollbacks : σ₂.rollbacks = σ₁.rollbacks) (hnow : σ₂.now = σ₁.now) : OperatorRefunded P σ found rem σ₂ := by
  have hrow (ref : RollbackRef) : σ₂.rollbacks.row ref = σ₁.rollbacks.row ref := by rw [hrollbacks]
  refine ⟨fun x hx hnot hoff hidle => ?_, fun x hx hnot hoff hunder => ?_, ?_, ?_⟩
  · rw [hoperator, confirmed_congr (hrow _)]
    exact h.back x hx hnot hoff hidle
  · rw [hoperator, underway_congr (hrow _) hnow]
    exact h.left x hx hnot hoff hunder
  · rw [hoperator]
    exact h.transactions
  · rw [hrollbacks]
    exact h.rows

lemma step (h : OperatorRefunded P σ found (x :: rem) σ₁) (hrows : ∀ y ∈ found, σ.bets.row y.1 = some y.2)
    (hx : x ∈ found) (hnot : x.1 ∉ rem.map (·.1)) (hnow : σ₁.now = σ.now) (hnow₂ : σ₂.now = σ₁.now)
    (hr : Reverses P σ₁ σ₂ x.2.walletId x.1 .restartRefund (.debit x.2.slot)) : OperatorRefunded P σ found rem σ₂ := by
  have hrow := hrows x hx
  have hself {y : ℕ × Bet} (hy : y ∈ found) (hid : y.1 = x.1) : y = x := by
    have hyrow := hrows y hy
    rw [hid, hrow] at hyrow
    exact Prod.ext hid (Option.some.inj hyrow).symm
  have hslot {y : ℕ × Bet} (hy : y ∈ found) (hs : y.2.slot = x.2.slot) : y = x :=
    hself hy (σ.bets.unique _ _ _ _ (hrows y hy) hrow hs)
  -- what belongs to this bet has not been touched before
  have htx : σ₁.operator (operatorOf P x.2) (.debit x.2.slot) = σ.operator (operatorOf P x.2) (.debit x.2.slot) :=
    h.transactions _ _ fun y hy _ _ hkey => by
      obtain rfl := hslot hy (Key.debit.inj hkey).symm
      simp
  have href : σ₁.rollbacks.row (refundOf P x) = σ.rollbacks.row (refundOf P x) :=
    h.rows _ fun y hy _ href => by
      obtain rfl := hself hy (RollbackRef.mk.inj href).2.1.symm
      simp
  have hunder := underway_congr href hnow
  -- and what belongs to another is not touched now
  have hothers {y : ℕ × Bet} (hy : y ∈ found) (hne : y.1 ≠ x.1) :
      σ₂.operator (operatorOf P y.2) (.debit y.2.slot) = σ₁.operator (operatorOf P y.2) (.debit y.2.slot) ∧
        σ₂.rollbacks.row (refundOf P y) = σ₁.rollbacks.row (refundOf P y) :=
    ⟨hr.transactions fun heq => hne (congrArg Prod.fst (hslot hy (Key.debit.inj heq.2.2))),
      hr.rows fun heq => hne (RollbackRef.mk.inj heq.2).2.1⟩
  have hrem {y : ℕ × Bet} (hy : y.1 ∉ rem.map (·.1)) (hne : y.1 ≠ x.1) : y.1 ∉ (x :: rem).map (·.1) := fun hmem =>
    (List.mem_cons.1 hmem).elim hne hy
  constructor
  · intro y hy hnoty hoff hidle
    by_cases hne : y.1 = x.1
    · obtain rfl := hself hy hne
      obtain ⟨hconfirmed, htaken⟩ := (hr.back hoff).done fun h => hidle (hunder.1 h)
      exact ⟨hconfirmed, htaken.trans (congrArg _ htx)⟩
    · rw [(hothers hy hne).1, confirmed_congr (hothers hy hne).2]
      exact h.back y hy (hrem hnoty hne) hoff hidle
  · intro y hy hnoty hoff hunder'
    by_cases hne : y.1 = x.1
    · obtain rfl := hself hy hne
      obtain ⟨hstill, hsame⟩ := (hr.back hoff).left (hunder.2 hunder')
      exact ⟨hstill, hsame.trans htx⟩
    · rw [(hothers hy hne).1, underway_congr (hothers hy hne).2 hnow₂]
      exact h.left y hy (hrem hnoty hne) hoff hunder'
  · intro o k hk
    rw [hr.transactions fun heq => hnot (hk x hx heq.1 heq.2.1 heq.2.2)]
    exact h.transactions o k fun y hy hoff ho hkey => List.mem_cons_of_mem _ (hk y hy hoff ho hkey)
  · intro ref hk
    rw [hr.rows fun heq => hnot (hk x hx heq.1 heq.2)]
    exact h.rows ref fun y hy hoff heq => List.mem_cons_of_mem _ (hk y hy hoff heq)

end OperatorRefunded

section Scenario

open Scenario

def stakedBy (phase : Phase) (y : Bet) : State :=
  { staked phase .active with bets := (∅ : Records Bet Bet.slot).create y rfl }

lemma row_stakedBy {phase : Phase} {b : ℕ} {y z : Bet} (h : (stakedBy phase y).bets.row b = some z) : b = 0 ∧ z = y := by
  have hrow : (if b = 0 then some y else none) = some z := h
  split at hrow
  · exact ⟨‹_›, (Option.some.inj hrow).symm⟩
  · cases hrow

def stakedAtOperator (phase : Phase) (y : Bet) : State :=
  { stakedBy phase y with
    ledger := ∅
    operator := fun o k => if o = 1 ∧ k = .debit slot then some ⟨0, -100, 0, true⟩ else none }

lemma solvent_stakedBy (phase : Phase) (y : Bet) : (stakedBy phase y).Solvent 0 := ⟨_, rfl, by decide⟩

lemma row_stakedAtOperator {phase : Phase} {b : ℕ} {y z : Bet}
    (h : (stakedAtOperator phase y).bets.row b = some z) : b = 0 ∧ z = y :=
  @row_stakedBy phase b y z h

lemma solvent_stakedAtOperator (phase : Phase) (y : Bet) : (stakedAtOperator phase y).Solvent 0 :=
  solvent_stakedBy phase y

end Scenario

section Rows

variable {b c : ℕ} {y : Bet} {w : BetWhere} {d : BetData}

lemma updateBets_self (hy : σ.bets.row b = some y) (hw : w.holds σ.rounds b y) :
    (σ.updateBets w d).bets.row b = some (d.apply σ.now y) := by
  simp [hy, hw]

lemma updateBets_other (hid : w.id = some b) (hc : c ≠ b) : (σ.updateBets w d).bets.row c = σ.bets.row c := by
  rw [updateBets_row]
  cases σ.bets.row c with
  | none => rfl
  | some z => simp [BetWhere.holds, hid, Ne.symm hc]

lemma finishes_swap {st : BetStatus} {Q : Except Err ℕ → State → Prop} (hy : σ.bets.row b = some y)
    (hst : y.status = st)
    (h : ∀ n, n ≠ 0 → Q (.ok n) (σ.updateBets { id := some b, status := some [st] } d)) :
    Finishes P i Q (await (.updateBets { id := some b, status := some [st] } d)) σ := by
  have hcount : σ.bets.count (BetWhere.holds { id := some b, status := some [st] } σ.rounds) ≠ 0 :=
    Table.count_ne_zero.2 ⟨b, y, hy, by simp [BetWhere.holds, hst]⟩
  have hp : perform P i (.updateBets { id := some b, status := some [st] } d) σ =
      some (.ok (σ.bets.count (BetWhere.holds { id := some b, status := some [st] } σ.rounds)),
        σ.updateBets { id := some b, status := some [st] } d) := rfl
  exact finishes_await hp (h _ hcount)

lemma finishes_update {Q : Except Err Unit → State → Prop} (hy : σ.bets.row b = some y)
    (h : Q (.ok ()) (σ.updateBets { id := some b } d)) : Finishes P i Q (await (.updateBet b d)) σ := by
  have hp : perform P i (.updateBet b d) σ = some (.ok (), σ.updateBets { id := some b } d) := by
    simp [perform, hy]
  exact finishes_await hp h

lemma finishes_delete {Q : Except Err Unit → State → Prop} (hy : σ.bets.row b = some y)
    (h : Q (.ok ()) { σ with bets := σ.bets.erase b }) : Finishes P i Q (await (.deleteBet b)) σ := by
  have hp : perform P i (.deleteBet b) σ = some (.ok (), { σ with bets := σ.bets.erase b }) := by
    simp [perform, hy]
  exact finishes_await hp h

end Rows

section Reservations

def Debited (σ : State) (_ : ℕ) (y : Bet) : Prop :=
  isTransientStatus y.status ∧ (σ.ledger.row (.debit y.slot)).isSome

/-- What becomes of a bet: a slot whose stake is on the ledger is refunded, one whose stake is not is deleted. -/
def recovered (σ : State) (b : ℕ) : Option Bet :=
  (σ.bets.row b).bind fun y =>
    if isTransientStatus y.status then
      if (σ.ledger.row (.debit y.slot)).isSome then
        some { y with status := .cancelled, settledAt := some σ.now }
      else none
    else some y

lemma finishes_reverseSlot {st : BetStatus} (hx : σ.bets.row x.1 = some x.2) (htransient : isTransientStatus x.2.status)
    (hnot : x.1 ∉ rem.map (·.1)) (hrow : σ₁.bets.row x.1 = some { x.2 with status := st }) (hnow : σ₁.now = σ.now)
    (hr : Paid P σ .restartRefund (Debited σ) (x :: rem) σ₁) (hpay : Debited σ x.1 x.2 → Payable P σ .restartRefund x.2) :
    Finishes P i (fun r σ₂ => r = .ok () ∧ σ₂.bets.row x.1 = recovered σ x.1 ∧
      (∀ c, c ≠ x.1 → σ₂.bets.row c = σ₁.bets.row c) ∧ Steady σ₁ σ₂ ∧
      Paid P σ .restartRefund (Debited σ) rem σ₂) (reverseSlot P x) σ₁ := by
  have hdebit : σ₁.ledger.row (.debit x.2.slot) = σ.ledger.row (.debit x.2.slot) :=
    hr.others _ fun b y hkey _ _ => by cases hkey
  refine ends_bind ((finishes_rollback (.debit x.2.slot)).mono ?_)
  rintro r σ₂ ⟨rfl, hsame⟩
  refine finishes_await_bind rfl ?_
  rw [hsame.ledger, hdebit]
  split
  · rename_i l hl
    have hdue : Debited σ x.1 x.2 := ⟨htransient, by simp [hl]⟩
    obtain ⟨hpos, hsolvent⟩ := hpay hdue
    have hsolvent₂ : P.onLedger x.2.walletId → σ₂.Solvent x.2.walletId := fun hon => by
      obtain ⟨z, hz, hle⟩ := hr.solvent _ (hsolvent hon)
      exact ⟨z, by rw [hsame.wallets, hz], hle⟩
    refine ends_bind ((finishes_credit hpos hsolvent₂).mono ?_)
    rintro r σ₃ ⟨⟨tx, rfl, -⟩, hc, -⟩
    have hrow₃ : σ₃.bets.row x.1 = some { x.2 with status := st } := by rw [hc.bets, hsame.bets, hrow]
    refine finishes_update hrow₃ ⟨rfl, ?_, fun c hc' => ?_, ?_, ?_⟩
    · rw [updateBets_self hrow₃ (by simp [BetWhere.holds])]
      simp [recovered, hx, htransient, hl, BetData.apply, hc.now, hsame.now, hnow]
    · rw [updateBets_other rfl hc', hc.bets, hsame.bets]
    · exact ((Steady.of_books hsame).trans (.of_credits hc)).trans ⟨rfl, rfl, rfl⟩
    · exact (Paid.credit (hr.same hsame.ledger hsame.wallets) hx hdue hnot hc).same rfl rfl
  · rename_i hl
    have hrow₂ : σ₂.bets.row x.1 = some { x.2 with status := st } := by rw [hsame.bets, hrow]
    refine ends_bind (ends_attempt (finishes_delete hrow₂ ?_))
    refine ends_ret ⟨rfl, ?_, fun c hc => ?_, (Steady.of_books hsame).trans ⟨rfl, rfl, rfl⟩, ?_⟩
    · simp [recovered, hx, htransient, hl]
    · simp [hc, hsame.bets]
    · exact (hr.skip hx (by simp [Debited, hl])).same hsame.ledger hsame.wallets

lemma finishes_recoverOne {n : ℕ} (h : Partway σ (recovered σ) (x :: rem) σ₁)
    (hr : Paid P σ .restartRefund (Debited σ) (x :: rem) σ₁) (htransient : isTransientStatus x.2.status)
    (hpay : Debited σ x.1 x.2 → Payable P σ .restartRefund x.2) :
    Finishes P i (fun r σ₂ => r = .ok (n + 1) ∧ Partway σ (recovered σ) rem σ₂ ∧ Paid P σ .restartRefund (Debited σ) rem σ₂)
      (recoverOne P n x) σ₁ := by
  have hrow : σ.bets.row x.1 = some x.2 := h.head_row
  -- the claim, which a slot that an earlier pass has claimed goes without
  have hclaim : Finishes P i (fun r σ₂ => (∃ m, r = .ok m ∧ m ≠ 0) ∧
      (∃ st, σ₂.bets.row x.1 = some { x.2 with status := st }) ∧
      (∀ c, c ≠ x.1 → σ₂.bets.row c = σ₁.bets.row c) ∧ Steady σ₁ σ₂ ∧
      σ₂.ledger = σ₁.ledger ∧ σ₂.wallets = σ₁.wallets) (claimSlot x) σ₁ := by
    unfold claimSlot
    split
    · rename_i hst
      refine finishes_swap h.head hst fun m hm => ⟨⟨m, rfl, hm⟩, ⟨.cancelling, ?_⟩, fun c hc => ?_,
        ⟨rfl, rfl, rfl⟩, rfl, rfl⟩
      · exact updateBets_self h.head (by simp [BetWhere.holds, hst])
      · exact updateBets_other rfl hc
    · exact ends_ret ⟨⟨1, rfl, by decide⟩, ⟨x.2.status, h.head⟩, fun _ _ => rfl, .refl _, rfl, rfl⟩
  refine ends_bind (hclaim.mono ?_)
  rintro r σ₂ ⟨⟨m, rfl, hm⟩, ⟨st, hst⟩, hothers, hsteady, hledger, hwallets⟩
  dsimp only
  rw [if_neg hm]
  have hreverse := finishes_reverseSlot (i := i) hrow htransient h.not_mem hst (h.steady.trans hsteady).now
    (hr.same hledger hwallets) hpay
  refine ends_bind (ends_attempt (hreverse.mono ?_))
  rintro r σ₃ ⟨rfl, hself, hothers₃, hsteady₃, hrefunded⟩
  refine ends_ret ⟨rfl, h.step hself (fun c hc => ?_) (hsteady.trans hsteady₃), hrefunded⟩
  rw [hothers₃ c hc, hothers c hc]

theorem reservations_recovered (hpay : ∀ b y, σ.bets.row b = some y → Debited σ b y → Payable P σ .restartRefund y) :
    Finishes P i (fun r σ' => r = .ok (σ.bets.count fun _ y => isTransientStatus y.status) ∧
      (∀ b, σ'.bets.row b = recovered σ b) ∧ Paid P σ .restartRefund (Debited σ) [] σ' ∧ σ'.rounds = σ.rounds)
      (recoverReservingBets P 0) σ := by
  set found := σ.bets.findMany fun _ y => isTransientStatus y.status with hdef
  have hp : perform P i (.findBets { status := some [.reserving, .cancelling], createdBefore := none } none) σ =
      some (.ok found, σ) := by
    have hsame : (BetWhere.holds { status := some [.reserving, .cancelling], createdBefore := none } σ.rounds) =
        fun _ y => isTransientStatus y.status := by
      funext b y
      simp [BetWhere.holds, isTransientStatus]
    simp only [perform, hsame, Option.map_none, Option.getD_none, hdef]
  have hmem (x : ℕ × Bet) (hx : x ∈ found) : σ.bets.row x.1 = some x.2 ∧ isTransientStatus x.2.status :=
    Table.mem_findMany.1 hx
  refine finishes_await_bind hp ((ends_count (J := fun rem σ₁ => rem.Sublist found ∧
    Partway σ (recovered σ) rem σ₁ ∧ Paid P σ .restartRefund (Debited σ) rem σ₁) (fun n x rem σ₁ hJ => ?_)
    ⟨.refl _, .start (.refl _) fun b hb => ?_, .start fun b y hy hdue => ?_⟩).mono ?_)
  · obtain ⟨hsub, hpartway, hrefunded⟩ := hJ
    obtain ⟨hrow, htransient⟩ := hmem x (hsub.subset (by simp))
    refine (finishes_recoverOne hpartway hrefunded htransient (hpay x.1 x.2 hrow)).mono ?_
    rintro r σ₂ ⟨rfl, hpartway₂, hrefunded₂⟩
    exact ⟨rfl, (List.sublist_cons_self x rem).trans hsub, hpartway₂, hrefunded₂⟩
  · unfold recovered
    cases hy : σ.bets.row b with
    | none => rfl
    | some y =>
        have hnot : ¬ isTransientStatus y.status := fun hst =>
          hb (List.mem_map_of_mem (f := (·.1)) (Table.mem_findMany.2 ⟨hy, hst⟩))
        simp [hnot]
  · exact List.mem_map_of_mem (f := (·.1)) (show (b, y) ∈ found from Table.mem_findMany.2 ⟨hy, hdue.1⟩)
  · rintro r σ₁ ⟨rfl, -, hpartway, hrefunded⟩
    exact ⟨by rw [Nat.zero_add]; rfl, hpartway.done, hrefunded, hpartway.steady.rounds⟩

open Scenario in
theorem reservation_recovered : Finishes (params false false) 0 (fun r σ' => r = .ok 1 ∧
    σ'.bets.row 0 = some { bet .reserving with status := .cancelled, settledAt := some 0 })
    (recoverReservingBets (params false false) 0) (stakedBy .betting (bet .reserving)) := by
  refine (reservations_recovered fun b y hy _ => ?_).mono fun r σ' h => ⟨h.1, h.2.1 0⟩
  obtain ⟨rfl, rfl⟩ := row_stakedBy hy
  exact ⟨by decide, fun _ => solvent_stakedBy _ _⟩

end Reservations

section Refunds

def cancelled (σ : State) (found : List (ℕ × Bet)) (b : ℕ) : Option Bet :=
  (σ.bets.row b).map fun y =>
    if b ∈ found.map (·.1) then { y with status := .cancelled, settledAt := some σ.now } else y

def among (found : List (ℕ × Bet)) (b : ℕ) (_ : Bet) : Prop := b ∈ found.map (·.1)

variable {found : List (ℕ × Bet)}

/-- The bets found have been refunded and cancelled, but for these. -/
structure Refunding (P : Params) (σ : State) (found rem : List (ℕ × Bet)) (σ₁ : State) : Prop where
  bets : Partway σ (cancelled σ found) rem σ₁
  ledger : Paid P σ .restartRefund (among found) rem σ₁
  operators : OperatorRefunded P σ found rem σ₁
  rows : ∀ x ∈ found, σ.bets.row x.1 = some x.2
  payable : ∀ x ∈ found, Payable P σ .restartRefund x.2

def AllPayable (P : Params) (σ : State) (found : List (ℕ × Bet)) : Prop := ∀ x ∈ found, Payable P σ .restartRefund x.2

lemma refunding_start {p : ℕ → Bet → Bool} (hfound : found.Sublist (σ.bets.findMany p)) (hpay : AllPayable P σ found) :
    Refunding P σ found found σ where
  bets := by
    refine .start hfound fun b hb => ?_
    unfold cancelled
    cases σ.bets.row b <;> simp [hb]
  ledger := .start fun b y _ hdue => hdue
  operators := .start
  rows x hx := (Table.mem_findMany.1 (hfound.subset hx)).1
  payable := hpay

lemma Refunding.step {w : BetWhere} (h : Refunding P σ found (x :: rem) σ₁) (hx : x ∈ found)
    (hc : Credits P σ₁ σ₂ x.2.walletId x.2.amount .refund (.restartRefund x.1) x.1)
    (hr : Reverses P σ₁ σ₂ x.2.walletId x.1 .restartRefund (.debit x.2.slot)) (hid : w.id = some x.1)
    (hw : w.holds σ₂.rounds x.1 x.2) :
    Refunding P σ found rem (σ₂.updateBets w { status := some .cancelled, settles := true }) := by
  have hmem : x.1 ∈ found.map (·.1) := List.mem_map_of_mem hx
  have hrow : σ₂.bets.row x.1 = some x.2 := by rw [hc.bets, h.bets.head]
  refine ⟨h.bets.step ?_ (fun c hne => ?_) ((Steady.of_credits hc).trans ⟨rfl, rfl, rfl⟩),
    (Paid.credit h.ledger h.bets.head_row hmem h.bets.not_mem hc).same rfl rfl,
    (h.operators.step h.rows hx h.bets.not_mem h.bets.steady.now hc.now hr).same rfl rfl rfl, h.rows, h.payable⟩
  · rw [updateBets_self hrow hw]
    simp [cancelled, h.bets.head_row, hmem, BetData.apply, hc.now, h.bets.steady.now]
  · rw [updateBets_other hid hne, hc.bets]

lemma finishes_refundOne (h : Refunding P σ found (x :: rem) σ₁) (hx : x ∈ found) :
    Finishes P i (fun r σ₂ => ∃ u, r = .ok u ∧ Refunding P σ found rem σ₂) (refundOne P () x) σ₁ := by
  obtain ⟨hpos, hsolvent⟩ := h.payable x hx
  refine ends_catching (ends_bind ((finishes_reverse (w := x.2.walletId) rfl rfl hpos fun hon =>
    h.ledger.solvent _ (hsolvent hon)).mono ?_))
  rintro r σ₂ ⟨rfl, hc, hr⟩
  refine finishes_update (by rw [hc.bets, h.bets.head]) ?_
  exact ⟨(), rfl, h.step (w := { id := some x.1 }) hx hc hr rfl (by simp [BetWhere.holds])⟩

lemma finishes_healOne {n : ℕ} (h : Refunding P σ found (x :: rem) σ₁) (hx : x ∈ found)
    (hactive : x.2.status = .active) :
    Finishes P i (fun r σ₂ => r = .ok (n + 1) ∧ Refunding P σ found rem σ₂) (healOne P n x) σ₁ := by
  obtain ⟨hpos, hsolvent⟩ := h.payable x hx
  refine ends_bind (ends_attempt (ends_bind ((finishes_reverse (w := x.2.walletId) rfl rfl hpos fun hon =>
    h.ledger.solvent _ (hsolvent hon)).mono ?_)))
  rintro r σ₂ ⟨rfl, hc, hr⟩
  refine finishes_swap (by rw [hc.bets, h.bets.head]) hactive fun m hm => ?_
  refine ends_ret ⟨?_, h.step (w := { id := some x.1, status := some [.active] }) hx hc hr rfl
    (by simp [BetWhere.holds, hactive])⟩
  simp [Except.toOption, Nat.pos_of_ne_zero hm]

def activeOf (σ : State) (roundId : ℕ) : List (ℕ × Bet) :=
  σ.bets.findMany fun _ y => y.slot.roundId = roundId && y.status = .active

lemma find_active (roundId : ℕ) : perform P i (.findBets { roundId := some roundId, status := some [.active] } none) σ =
    some (.ok (activeOf σ roundId), σ) := by
  have hsame : (BetWhere.holds { roundId := some roundId, status := some [.active] } σ.rounds) =
      fun _ y => y.slot.roundId = roundId && y.status = .active := by
    funext b y
    simp [BetWhere.holds, eq_comm]
  simp only [perform, hsame, Option.map_none, Option.getD_none, activeOf]

def stranded (σ : State) (olderThanMs : ℕ) : List (ℕ × Bet) :=
  (σ.bets.findMany fun _ y => y.status = .active &&
    (σ.rounds.row y.slot.roundId).any (·.refundedBefore (σ.now - olderThanMs))).take 100

open Scenario in
/-- Bet 0 was left active on a round that was closed before it crashed. -/
def leftActive : State :=
  { stakedAtOperator .completed (bet .active) with
    rounds := (∅ : Records Round Round.seedId).create { Scenario.round .completed with settledAt := some 0 } rfl
    now := 1 }

end Refunds

section Payouts

def pendingPayout (_ : ℕ) (y : Bet) : Bool := y.status = .payoutPending

def cashed (σ : State) (b : ℕ) : Option Bet :=
  (σ.bets.row b).map fun y =>
    if y.status = .payoutPending then { y with status := .cashedOut, payoutTxId := some (.payout b) } else y

def Owed (_ : ℕ) (y : Bet) : Prop := y.status = .payoutPending

structure Paying (P : Params) (σ : State) (rem : List (ℕ × Bet)) (σ₁ : State) : Prop where
  bets : Partway σ (cashed σ) rem σ₁
  ledger : Paid P σ .payout Owed rem σ₁
  operators : OperatorPaid P σ .payout Owed rem σ₁
  queue : σ₁.bets.findMany pendingPayout = rem
  owed : ∀ x ∈ rem, x.2.status = .payoutPending ∧ Payable P σ .payout x.2

variable {limit : ℕ}

lemma mem_owed {b : ℕ} {y : Bet} (hy : σ.bets.row b = some y) (hdue : Owed b y) :
    b ∈ (σ.bets.findMany pendingPayout).map (·.1) :=
  List.mem_map_of_mem (f := (·.1)) (show (b, y) ∈ σ.bets.findMany pendingPayout from
    Table.mem_findMany.2 ⟨hy, by simpa [pendingPayout, Owed] using hdue⟩)

lemma paying_start (hpay : ∀ b y, σ.bets.row b = some y → y.status = .payoutPending → Payable P σ .payout y) :
    Paying P σ (σ.bets.findMany pendingPayout) σ where
  bets := by
    refine .start (.refl _) fun b hb => ?_
    unfold cashed
    cases hy : σ.bets.row b with
    | none => rfl
    | some y =>
        have hnot : y.status ≠ .payoutPending := fun hst =>
          hb (List.mem_map_of_mem (f := (·.1)) (Table.mem_findMany.2 ⟨hy, by simpa [pendingPayout] using hst⟩))
        simp [hnot]
  ledger := .start fun b y => mem_owed
  operators := .start fun b y => mem_owed
  queue := rfl
  owed x hx := by
    obtain ⟨hrow, hp⟩ := Table.mem_findMany.1 hx
    have hpending : x.2.status = .payoutPending := by simpa [pendingPayout] using hp
    exact ⟨hpending, hpay x.1 x.2 hrow hpending⟩

lemma finishes_reconcileOne {n : ℕ} (h : Paying P σ (x :: rem) σ₁) :
    Finishes P i (fun r σ₂ => r = .ok (n + 1) ∧ Paying P σ rem σ₂) (reconcileOne P n x) σ₁ := by
  obtain ⟨hpending, hpos, hsolvent⟩ := h.owed x (by simp)
  refine ends_bind (ends_attempt (ends_bind ((finishes_credit hpos fun hon =>
    h.ledger.solvent _ (hsolvent hon)).mono ?_)))
  rintro r σ₂ ⟨⟨tx, rfl, hid⟩, hc, hw⟩
  have hrow : σ₂.bets.row x.1 = some x.2 := by rw [hc.bets, h.bets.head]
  refine ends_bind (finishes_swap hrow hpending fun m hm => ?_)
  dsimp only
  rw [if_neg hm]
  refine finishes_await_bind rfl (ends_ret ?_)
  have hother (c : ℕ) (hne : c ≠ x.1) := updateBets_other (σ := σ₂)
    (w := { id := some x.1, status := some [.payoutPending] })
    (d := { status := some .cashedOut, payoutTxId := some tx.id }) rfl hne
  have hself := updateBets_self (w := { id := some x.1, status := some [.payoutPending] })
    (d := { status := some .cashedOut, payoutTxId := some tx.id }) hrow (by simp [BetWhere.holds, hpending])
  refine ends_ret ⟨rfl, h.bets.step ?_ (fun c hne => ?_) ((Steady.of_credits hc).trans ⟨rfl, rfl, rfl⟩),
    (Paid.credit h.ledger h.bets.head_row hpending h.bets.not_mem hc).same rfl rfl,
    (OperatorPaid.credit h.operators h.bets.head_row hpending h.bets.not_mem hw).same rfl rfl, ?_,
    fun y hy => h.owed y (List.mem_cons_of_mem _ hy)⟩
  · rw [hself]
    simp [cashed, h.bets.head_row, hpending, BetData.apply, hid]
  · rw [hother c hne, hc.bets]
  · have hqueue : σ₂.bets.findMany pendingPayout = x :: rem := by rw [hc.bets, h.queue]
    exact Table.findMany_tail hqueue rfl hself (by simp [pendingPayout, BetData.apply]) hother

/-- A pass pays the first wins that are owed, up to its limit, and tells how many they are. -/
lemma finishes_reconcilePendingPayouts (h : Paying P σ rem σ₁) :
    Finishes P i (fun r σ₂ => r = .ok (rem.take limit).length ∧ Paying P σ (rem.drop limit) σ₂)
      (reconcilePendingPayouts P limit) σ₁ := by
  have hp : perform P i (.findBets { status := some [.payoutPending] } (some limit)) σ₁ =
      some (.ok (rem.take limit), σ₁) := by
    have hsame : (BetWhere.holds { status := some [.payoutPending] } σ₁.rounds) = pendingPayout := by
      funext b y
      simp [BetWhere.holds, pendingPayout]
    simp only [perform, hsame, h.queue, Option.map_some, Option.getD_some]
  exact finishes_await_bind hp (ends_pass (fun n x xs b h => finishes_reconcileOne h) h)

end Payouts

section Autos

def dueAutos (σ : State) (roundId m : ℕ) : List (ℕ × Bet) :=
  σ.bets.findMany fun _ y => y.slot.roundId = roundId && y.status = .active && y.autoCashout.any (· ≤ m)

/-- What an auto cashout wins: the stake at the target of the bet, capped. -/
def autoWin (P : Params) (y : Bet) : ℤ :=
  P.risk.capPayout (floorPayout y.amount (y.autoCashout.getD 0)) y.maxWinPerBet

def Pay.autoWin (P : Params) : Pay := ⟨.payout, fun _ _ => Key.payout.inj, .payoutCredit, Recovery.autoWin P⟩

/-- The target of the bet is due, and lies below the crash point. -/
def Won (found : List (ℕ × Bet)) (crash b : ℕ) (y : Bet) : Prop :=
  b ∈ found.map (·.1) ∧ y.autoCashout.any (· < crash)

instance {found : List (ℕ × Bet)} {crash b : ℕ} {y : Bet} : Decidable (Won found crash b y) :=
  inferInstanceAs (Decidable (_ ∧ _))

def honoured (P : Params) (σ : State) (found : List (ℕ × Bet)) (crash b : ℕ) : Option Bet :=
  (σ.bets.row b).map fun y =>
    if Won found crash b y then
      { y with
        status := .cashedOut
        cashoutMult := y.autoCashout
        payout := autoWin P y
        payoutTxId := some (.payout b)
        settledAt := some σ.now }
    else y

variable {found : List (ℕ × Bet)} {crash m n : ℕ} {view : PublicRoundState} {round : Round}

structure Playing (P : Params) (σ : State) (n : ℕ) (view : PublicRoundState) (round : Round) : Prop where
  shows : (σ.nodes n).publicState P σ.now = some view
  running : view.phase = .running
  row : σ.rounds.row view.roundId = some round
  opened : round.status = .running

lemma Playing.steady (h : Playing P σ n view round) (hs : Steady σ σ₁) : Playing P σ₁ n view round :=
  ⟨by rw [hs.nodes, hs.now, h.shows], h.running, by rw [hs.rounds, h.row], h.opened⟩

lemma finishes_claimWin {b currency : ℕ} {y : Bet} {payout : ℤ} (hy : σ.bets.row b = some y) (hactive : y.status = .active)
    (hwin : P.risk.capPayout (floorPayout y.amount m) y.maxWinPerBet = payout) (hpos : 0 < payout)
    (hsolvent : P.onLedger y.walletId → σ.Solvent y.walletId) :
    Finishes P i (fun r σ₂ => (∃ balance, r = .ok (.paid m payout balance currency)) ∧ ∃ σ₁,
      Credits P (σ.updateBets { id := some b, status := some [.active] }
        { status := some .cashedOut, cashoutMult := some m, payout := some payout, settles := true }) σ₁ y.walletId payout
        .payoutCredit (.payout b) b ∧ Wins P σ σ₁ y.walletId payout (.payout b) b ∧
          σ₂ = σ₁.updateBets { id := some b } { payoutTxId := some (.payout b) })
      (BetsService.claimWin P b y m currency) σ := by
  subst hwin
  refine ends_bind (finishes_swap hy hactive fun k hk => ?_)
  dsimp only
  rw [if_neg hk]
  refine ends_bind (ends_attempt (Ends.mono (finishes_credit hpos ?_) ?_))
  · exact hsolvent
  rintro r σ₁ ⟨⟨tx, rfl, hid⟩, hc, hw⟩
  have hrow : ∃ z, σ₁.bets.row b = some z := by
    rw [hc.bets]
    exact ⟨_, updateBets_self hy (by simp [BetWhere.holds, hactive])⟩
  obtain ⟨z, hz⟩ := hrow
  refine ends_bind (finishes_update hz (finishes_await_bind rfl (ends_ret
    ⟨⟨_, rfl⟩, σ₁, hc, ⟨hw.won, hw.kept, hw.others, hw.outbox⟩, ?_⟩)))
  rw [hid]

/-- The bets that are due have been cashed out and paid, but for these. -/
structure Honouring (P : Params) (σ : State) (found : List (ℕ × Bet)) (crash : ℕ) (rem : List (ℕ × Bet)) (σ₁ : State) :
    Prop where
  bets : Partway σ (honoured P σ found crash) rem σ₁
  ledger : Paid P σ (.autoWin P) (Won found crash) rem σ₁
  operators : OperatorPaid P σ (.autoWin P) (Won found crash) rem σ₁

lemma honouring_start {p : ℕ → Bet → Bool} (hfound : found.Sublist (σ.bets.findMany p)) :
    Honouring P σ found crash found σ where
  bets := by
    refine .start hfound fun b hb => ?_
    unfold honoured
    cases σ.bets.row b <;> simp [Won, hb]
  ledger := .start fun b y hy hdue => hdue.1
  operators := .start fun b y hy hdue => hdue.1

lemma finishes_autoCashOne {results : List CashoutResult} (hplay : Playing P σ n view round)
    (h : Honouring P σ found round.crashPoint (x :: rem) σ₁) (hx : x ∈ found)
    (hround : x.2.slot.roundId = view.roundId) (hactive : x.2.status = .active)
    (hauto : x.2.autoCashout = some m) (hpay : Won found round.crashPoint x.1 x.2 → 0 < autoWin P x.2)
    (hsolvent : σ.Solvent x.2.walletId) :
    Finishes P i (fun r σ₂ => (∃ results', r = .ok results' ∧ results'.length = results.length +
        if Won found round.crashPoint x.1 x.2 then 1 else 0) ∧
      Honouring P σ found round.crashPoint rem σ₂) (autoCashOne P n results x) σ₁ := by
  have hplay₁ := hplay.steady h.bets.steady
  have hrow : σ.bets.row x.1 = some x.2 := h.bets.head_row
  have hhead := h.bets.head
  have hmem : x.1 ∈ found.map (·.1) := List.mem_map_of_mem hx
  have hwon : Won found round.crashPoint x.1 x.2 ↔ m < round.crashPoint := by simp [Won, hmem, hauto]
  obtain ⟨z, hz, -⟩ := h.ledger.solvent _ hsolvent
  have hslot : σ₁.bets.findUnique ⟨view.roundId, x.2.slot.userId, x.2.slot.panel⟩ = some (x.1, x.2) :=
    Records.findUnique_eq_some.2 ⟨hhead, by rw [← hround]⟩
  refine ends_bind (ends_attempt ?_)
  have hview : perform P i (.publicState n) σ₁ = some (.ok (some view), σ₁) := by simp only [perform, hplay₁.shows]
  have hphase : ¬ view.phase ≠ .running := by simp [hplay₁.running]
  refine finishes_await_bind hview ?_
  dsimp only
  rw [if_neg hphase, hauto]
  have hfind : perform P i (.findSlot ⟨view.roundId, x.2.slot.userId, x.2.slot.panel⟩) σ₁ =
      some (.ok (some (x.1, x.2)), σ₁) := by simp only [perform, hslot]
  have hwallet : perform P i (.findWallet x.2.walletId) σ₁ = some (.ok z, σ₁) := by
    simp only [perform, hz, Option.elim_some]
  have hfindRound : perform P i (.findRound x.2.slot.roundId) σ₁ = some (.ok (some round), σ₁) := by
    simp only [perform, hround, hplay₁.row]
  refine finishes_await_bind hfind ?_
  refine finishes_await_bind hwallet ?_
  refine finishes_await_bind hfindRound ?_
  have hstatus : ¬ x.2.status ≠ .active := by simp [hactive]
  dsimp only
  rw [if_neg hstatus]
  by_cases hlate : round.status ≠ .running ∨ round.crashPoint ≤ m
  · rw [if_pos hlate]
    have hnot : ¬ Won found round.crashPoint x.1 x.2 := by
      rw [hwon]
      have hcrash := hlate.resolve_left (by simp [hplay.opened])
      omega
    refine ends_ret (ends_ret ⟨⟨results, rfl, by simp [hnot]⟩, h.bets.step ?_ (fun _ _ => rfl) (.refl _),
      h.ledger.skip hrow hnot, h.operators.skip hrow hnot⟩)
    rw [hhead]
    simp [honoured, hrow, hnot]
  · rw [if_neg hlate]
    have hw : Won found round.crashPoint x.1 x.2 := hwon.2 (by omega)
    have hwin : P.risk.capPayout (floorPayout x.2.amount m) x.2.maxWinPerBet = autoWin P x.2 := by simp [autoWin, hauto]
    refine (finishes_claimWin hhead hactive hwin (hpay hw) fun _ => h.ledger.solvent _ hsolvent).mono ?_
    rintro r σ₃ ⟨⟨balance, rfl⟩, σ₂, hc, hwins, rfl⟩
    refine ends_ret ⟨⟨_, rfl, by simp [hw]⟩, h.bets.step ?_ (fun c hne => ?_) ?_, ?_, ?_⟩
    · have hclaimed := updateBets_self (w := { id := some x.1, status := some [.active] })
        (d := { status := some .cashedOut, cashoutMult := some m, payout := some (autoWin P x.2), settles := true })
        hhead (by simp [BetWhere.holds, hactive])
      rw [← hc.bets] at hclaimed
      rw [updateBets_self hclaimed (by simp [BetWhere.holds])]
      simp [honoured, hrow, hw, BetData.apply, h.bets.steady.now, hauto]
    · rw [updateBets_other rfl hne, hc.bets, updateBets_other rfl hne]
    · exact (((Steady.refl σ₁).update _ _).trans (.of_credits hc)).update _ _
    · exact (Paid.credit (h.ledger.update _ _) hrow hw h.bets.not_mem hc).update _ _
    · exact (OperatorPaid.credit h.operators hrow hw h.bets.not_mem hwins).same rfl rfl

/-- The auto cashouts of a round come to all that are due. -/
lemma finishes_evaluateAutoCashouts (hplay : Playing P σ n view round)
    (hpay : ∀ x ∈ dueAutos σ view.roundId m, σ.Solvent x.2.walletId ∧ 0 < autoWin P x.2) :
    Finishes P i (fun r σ' => ∃ results, r = .ok results ∧
      results.length = ((dueAutos σ view.roundId m).filter fun x => x.2.autoCashout.any (· < round.crashPoint)).length ∧
      Honouring P σ (dueAutos σ view.roundId m) round.crashPoint [] σ') (BetsService.evaluateAutoCashouts P n m) σ := by
  set found := dueAutos σ view.roundId m with hdef
  have hfind : perform P i (.findBets { roundId := some view.roundId, status := some [.active], autoCashoutLe := some m }
      none) σ = some (.ok found, σ) := by
    have hsame : (BetWhere.holds { roundId := some view.roundId, status := some [.active], autoCashoutLe := some m }
        σ.rounds) = fun _ y => y.slot.roundId = view.roundId && y.status = .active && y.autoCashout.any (· ≤ m) := by
      funext b y
      simp [BetWhere.holds, eq_comm]
    simp only [perform, hsame, Option.map_none, Option.getD_none, hdef, dueAutos]
  have hview : perform P i (.publicState n) σ = some (.ok (some view), σ) := by simp only [perform, hplay.shows]
  have hphase : ¬ view.phase ≠ .running := by simp [hplay.running]
  have hmem (x : ℕ × Bet) (hx : x ∈ found) :
      x.2.slot.roundId = view.roundId ∧ x.2.status = .active ∧ ∃ t, x.2.autoCashout = some t := by
    have hp := (Table.mem_findMany.1 hx).2
    simp only [Bool.and_eq_true, decide_eq_true_eq, Option.any_eq_true] at hp
    obtain ⟨⟨hround, hactive⟩, t, ht, -⟩ := hp
    exact ⟨hround, hactive, t, ht⟩
  refine finishes_await_bind hview ?_
  dsimp only
  rw [if_neg hphase]
  refine finishes_await_bind hfind ((ends_loop (J := fun rem results σ₁ => rem.Sublist found ∧
    results.length + (rem.filter fun x => x.2.autoCashout.any (· < round.crashPoint)).length =
      (found.filter fun x => x.2.autoCashout.any (· < round.crashPoint)).length ∧
    Honouring P σ found round.crashPoint rem σ₁) (fun x rem results σ₁ hJ => ?_)
    ⟨.refl _, by simp, honouring_start (.refl _)⟩).mono ?_)
  · obtain ⟨hsub, hlen, h⟩ := hJ
    have hx := hsub.subset (List.mem_cons_self (a := x) (l := rem))
    obtain ⟨hround, hactive, t, ht⟩ := hmem x hx
    refine (finishes_autoCashOne hplay h hx hround hactive ht (fun _ => (hpay x hx).2) (hpay x hx).1).mono ?_
    rintro r σ₂ ⟨⟨results', rfl, hcount⟩, h₂⟩
    refine ⟨results', rfl, (List.sublist_cons_self x rem).trans hsub, ?_, h₂⟩
    rw [← hlen, hcount]
    have hin : x.1 ∈ found.map (·.1) := List.mem_map_of_mem hx
    by_cases hw : x.2.autoCashout.any (· < round.crashPoint)
    · simp [Won, hin, hw]
      omega
    · simp [Won, hw]
  · rintro r σ₁ ⟨results, rfl, -, hlen, h⟩
    exact ⟨results, rfl, by simpa using hlen, h⟩

open Scenario in
def aiming (target : ℕ) : State := stakedAtOperator .running { bet .active with autoCashout := some target }

open Scenario in
lemma playing_aiming (target : ℕ) : Playing (params true false) (aiming target) 0 ⟨0, .running, 100⟩
    (Scenario.round .running) :=
  ⟨rfl, rfl, rfl, rfl⟩

open Scenario in
lemma due_aiming {target m : ℕ} {x : ℕ × Bet} (hx : x ∈ dueAutos (aiming target) 0 m) :
    x.2 = { bet .active with autoCashout := some target } :=
  (row_stakedAtOperator (Table.mem_findMany.1 hx).1).2

end Autos

section Crash

/-- What becomes of a bet: on a round that crashes an active bet with a target below the crash point is cashed out
at the target, and any other active bet is busted. -/
def resolved (P : Params) (σ : State) (roundId crash b : ℕ) : Option Bet :=
  (σ.bets.row b).map fun y =>
    if y.slot.roundId = roundId ∧ y.status = .active then
      if y.autoCashout.any (· < crash) then
        { y with
          status := .cashedOut
          cashoutMult := y.autoCashout
          payout := autoWin P y
          payoutTxId := some (.payout b)
          settledAt := some σ.now }
      else { y with status := .busted, settledAt := some σ.now }
    else y

variable {n : ℕ} {view : PublicRoundState} {round : Round} {s : EngineState}

lemma finishes_enterCrashed (hs : (σ.nodes n).state = some s) (hround : σ.rounds.row s.roundId = some round) :
    Finishes P i (fun r σ' => r = .ok () ∧ σ'.bets = σ.bets ∧ σ'.ledger = σ.ledger ∧ σ'.wallets = σ.wallets ∧
      σ'.operator = σ.operator ∧ σ'.rollbacks = σ.rollbacks ∧ σ'.now = σ.now ∧ ∃ ends, σ'.rounds.row s.roundId =
        some { round with status := .crashed, phaseEndsAt := ends, crashedAt := some σ.now }) (enterCrashed n) σ := by
  have hread : perform P i (.readState n) σ = some (.ok (some s), σ) := by simp only [perform, hs]
  refine finishes_await_bind hread ?_
  simp only [Option.isNone_some, Bool.false_eq_true, if_false]
  refine ends_bind (finishes_await_bind rfl (ends_ret ?_))
  simp only [if_true]
  obtain ⟨s', σ₁, hp, hid, hbets, hrounds, hledger, hwallets, hoperator, hrollbacks, hnow⟩ : ∃ s' σ₁,
      perform P i (.enterPhase n .crashed Phase.crashed.ms) σ = some (.ok s', σ₁) ∧ s'.roundId = s.roundId ∧
        σ₁.bets = σ.bets ∧ σ₁.rounds = σ.rounds ∧ σ₁.ledger = σ.ledger ∧ σ₁.wallets = σ.wallets ∧
        σ₁.operator = σ.operator ∧ σ₁.rollbacks = σ.rollbacks ∧ σ₁.now = σ.now := by
    simp only [perform, State.enterPhase, hs]
    exact ⟨_, _, rfl, rfl, rfl, rfl, rfl, rfl, rfl, rfl, rfl⟩
  refine finishes_await_bind hp ?_
  have hrow : σ₁.rounds.row s'.roundId = some round := by rw [hrounds, hid, hround]
  have hupdate : perform P i (.updateRound s'.roundId
      { status := some .crashed, phaseEndsAt := some s'.phaseEndsAt, crashes := true }) σ₁ = some (.ok (),
        σ₁.updateRound s'.roundId { status := some .crashed, phaseEndsAt := some s'.phaseEndsAt, crashes := true }) := by
    simp [perform, hrow]
  refine finishes_await_bind hupdate ?_
  refine finishes_await_bind rfl ?_
  refine finishes_await_bind rfl ?_
  refine finishes_await (show perform P i (.schedule n Phase.crashed.ms .settling) _ = some (.ok (), State.schedule _ n _ _)
    from rfl) ?_
  refine ⟨rfl, hbets, hledger, hwallets, hoperator, hrollbacks, hnow, some s'.phaseEndsAt, ?_⟩
  rw [show ∀ σ₂ : State, (σ₂.schedule n Phase.crashed.ms .settling).rounds = σ₂.rounds from fun _ => rfl,
    updateRound_row, ← hid, hrow]
  simp [RoundData.apply, hnow]

lemma finishes_settleRound (roundId : ℕ) :
    Finishes P i (fun r σ' => (∃ losers, r = .ok losers) ∧ σ'.rounds = σ.rounds ∧ σ'.ledger = σ.ledger ∧
      σ'.wallets = σ.wallets ∧ σ'.operator = σ.operator ∧ σ'.rollbacks = σ.rollbacks ∧
        ∀ b, σ'.bets.row b = (σ.bets.row b).map fun y =>
          if y.slot.roundId = roundId ∧ y.status = .active then { y with status := .busted, settledAt := some σ.now }
          else y) (BetsService.settleRound roundId) σ := by
  have hfind : perform P i (.findBets { roundId := some roundId, status := some [.active] } none) σ =
      some (.ok (activeOf σ roundId), σ) := find_active roundId
  have hholds (b : ℕ) (y : Bet) : BetWhere.holds { roundId := some roundId, status := some [.active] } σ.rounds b y ↔
      y.slot.roundId = roundId ∧ y.status = .active := by
    simp [BetWhere.holds, @eq_comm _ roundId]
  refine finishes_await_bind hfind ?_
  split
  · rename_i hempty
    refine ends_ret ⟨⟨[], rfl⟩, rfl, rfl, rfl, rfl, rfl, fun b => ?_⟩
    cases hy : σ.bets.row b with
    | none => rfl
    | some y =>
        have hnot : ¬ (y.slot.roundId = roundId ∧ y.status = .active) := fun hboth => by
          have hmem : (b, y) ∈ activeOf σ roundId := Table.mem_findMany.2 ⟨hy, by simp [hboth.1, hboth.2]⟩
          rw [List.isEmpty_iff.1 hempty] at hmem
          cases hmem
        simp [hnot]
  · refine finishes_await_bind rfl (ends_ret ⟨⟨_, rfl⟩, rfl, rfl, rfl, rfl, rfl, fun b => ?_⟩)
    rw [updateBets_row]
    cases σ.bets.row b with
    | none => rfl
    | some y => simp [hholds, BetData.apply]

lemma finishes_honorThenCrash (hplay : Playing P σ n view round)
    (hpay : ∀ x ∈ dueAutos σ view.roundId round.crashPoint, σ.Solvent x.2.walletId ∧ 0 < autoWin P x.2) :
    Finishes P i (fun r σ' => r = .ok () ∧
      (∀ b, σ'.bets.row b = honoured P σ (dueAutos σ view.roundId round.crashPoint) round.crashPoint b) ∧
      Paid P σ (.autoWin P) (Won (dueAutos σ view.roundId round.crashPoint) round.crashPoint) [] σ' ∧
      OperatorPaid P σ (.autoWin P) (Won (dueAutos σ view.roundId round.crashPoint) round.crashPoint) [] σ' ∧
      σ'.now = σ.now ∧ ∃ ends, σ'.rounds.row view.roundId =
        some { round with status := .crashed, phaseEndsAt := ends, crashedAt := some σ.now })
      (honorThenCrash P n round.crashPoint) σ := by
  refine ends_bind (finishes_await_bind rfl (ends_ret ?_))
  simp only [if_true]
  refine ends_bind ((finishes_evaluateAutoCashouts hplay hpay).mono ?_)
  rintro r σ₁ ⟨results, rfl, -, h⟩
  have hplay₁ := hplay.steady h.bets.steady
  obtain ⟨s, hs, hview⟩ := Option.map_eq_some_iff.1 hplay₁.shows
  have hid : s.roundId = view.roundId := congrArg PublicRoundState.roundId hview
  refine (finishes_enterCrashed hs (hid ▸ hplay₁.row)).mono ?_
  rintro r σ₂ ⟨rfl, hbets, hledger, hwallets, hoperator, hrollbacks, hnow, ends, hround⟩
  refine ⟨rfl, fun b => ?_, h.ledger.same hledger hwallets, h.operators.same hoperator hrollbacks,
    hnow.trans h.bets.steady.now, ends, ?_⟩
  · rw [hbets, h.bets.done]
  · rw [← hid, hround, h.bets.steady.now]

lemma won_iff {roundId crash b : ℕ} {y : Bet} (hy : σ.bets.row b = some y) : Won (dueAutos σ roundId crash) crash b y ↔
    (y.slot.roundId = roundId ∧ y.status = .active) ∧ y.autoCashout.any (· < crash) := by
  constructor
  · rintro ⟨hmem, hlt⟩
    obtain ⟨⟨c, z⟩, hz, rfl⟩ := List.mem_map.1 hmem
    obtain ⟨hrow, hp⟩ := Table.mem_findMany.1 hz
    obtain rfl := Option.some.inj (hy.symm.trans hrow)
    simp only [Bool.and_eq_true, decide_eq_true_eq] at hp
    exact ⟨hp.1, hlt⟩
  · rintro ⟨⟨hours, hactive⟩, hlt⟩
    refine ⟨List.mem_map_of_mem (f := (·.1)) (show (b, y) ∈ dueAutos σ roundId crash from
      Table.mem_findMany.2 ⟨hy, ?_⟩), hlt⟩
    obtain ⟨t, ht, hlt⟩ := (Option.any_eq_true _ _).1 hlt
    simp only [hours, hactive, ht, Option.any_some, decide_true, Bool.true_and, decide_eq_true_eq] at hlt ⊢
    omega

open Scenario in
/-- The leader of the round of bet 0 went down before it crashed. -/
def missed (target : ℕ) : State :=
  { aiming target with
    now := 20000 }

end Crash

section Drains

open WalletRollbackService

def confirmed (σ : State) (ref : RollbackRef) : Option WalletRollback :=
  (σ.rollbacks.row ref).map fun r =>
    if r.owed σ.now then { r with status := .confirmed, leaseUntil := none } else r

variable {x : RollbackRef × WalletRollback} {rem : List (RollbackRef × WalletRollback)} {limit : ℕ}

/-- A transaction that a rollback was owed for, which has been sent. -/
def Sent (σ : State) (rem : List (RollbackRef × WalletRollback)) (operatorId : ℕ) (key : Key) : Prop :=
  ∃ ref r, σ.rollbacks.row ref = some r ∧ r.owed σ.now ∧ ref ∉ rem.map (·.1) ∧ ref.operatorId = operatorId ∧
    r.transactionId = key

structure Draining (σ : State) (rem : List (RollbackRef × WalletRollback)) (σ₁ : State) : Prop
    extends Sweep σ.rollbacks (confirmed σ) rem σ₁.rollbacks where
  queue : σ₁.rollbacks.findMany (fun _ r => r.owed σ.now) = rem
  reversed : ∀ o k, Sent σ rem o k → ∀ t, σ₁.operator o k = some t → ¬ t.applied
  untouched : ∀ o k, ¬ Sent σ rem o k → σ₁.operator o k = σ.operator o k
  books : SameBooks σ σ₁

lemma draining_start : Draining σ (σ.rollbacks.findMany fun _ r => r.owed σ.now) σ where
  toSweep := by
    refine .start (.refl _) fun ref href => ?_
    unfold confirmed
    cases hr : σ.rollbacks.row ref with
    | none => rfl
    | some r =>
        have hnot : ¬ r.owed σ.now := fun howed =>
          href (List.mem_map_of_mem (f := (·.1)) (Table.mem_findMany.2 ⟨hr, howed⟩))
        simp [hnot]
  queue := rfl
  reversed := by
    rintro o k ⟨ref, r, hr, howed, hnot, -⟩
    exact absurd (List.mem_map_of_mem (f := (·.1)) (show (ref, r) ∈ σ.rollbacks.findMany fun _ r => r.owed σ.now from
      Table.mem_findMany.2 ⟨hr, howed⟩)) hnot
  untouched _ _ _ := rfl
  books := .refl σ

lemma Draining.step (h : Draining σ (x :: rem) σ₁) (howed : x.2.owed σ.now) (hids : σ₂.rollbacks.ids = σ₁.rollbacks.ids)
    (hself : σ₂.rollbacks.row x.1 = some { x.2 with status := .confirmed, leaseUntil := none })
    (hothers : ∀ ref, ref ≠ x.1 → σ₂.rollbacks.row ref = σ₁.rollbacks.row ref)
    (hoperator : ∀ o k, σ₂.operator o k = if o = x.1.operatorId ∧ k = x.2.transactionId then
      (σ₁.operator x.1.operatorId x.2.transactionId).map ({ · with applied := false }) else σ₁.operator o k)
    (hbooks : SameBooks σ₁ σ₂) : Draining σ rem σ₂ := by
  have hsent (o : ℕ) (k : Key) : Sent σ rem o k ↔ Sent σ (x :: rem) o k ∨ o = x.1.operatorId ∧ k = x.2.transactionId := by
    constructor
    · rintro ⟨ref, r, hr, hr', hnot, ho, hk⟩
      by_cases hx : ref = x.1
      · subst hx
        obtain rfl := Option.some.inj (h.head_row.symm.trans hr)
        exact .inr ⟨ho.symm, hk.symm⟩
      · exact .inl ⟨ref, r, hr, hr', by simpa [hx] using hnot, ho, hk⟩
    · rintro (⟨ref, r, hr, hr', hnot, ho, hk⟩ | ⟨rfl, rfl⟩)
      · exact ⟨ref, r, hr, hr', fun hmem => hnot (List.mem_cons_of_mem _ hmem), ho, hk⟩
      · exact ⟨x.1, x.2, h.head_row, howed, h.not_mem, rfl, rfl⟩
  refine ⟨h.toSweep.step ?_ hothers, Table.findMany_tail h.queue hids hself ?_ hothers,
    fun o k hs t ht => ?_, fun o k hs => ?_, h.books.trans hbooks⟩
  · rw [hself]
    simp [confirmed, h.head_row, howed]
  · simp [WalletRollback.owed]
  · rw [hoperator] at ht
    split at ht
    · obtain ⟨t', -, rfl⟩ := Option.map_eq_some_iff.1 ht
      simp
    · rename_i hne
      exact h.reversed o k (((hsent o k).1 hs).resolve_right hne) t ht
  · rw [hsent, not_or] at hs
    rw [hoperator, if_neg hs.2, h.untouched o k hs.1]

lemma finishes_drainOne {n : ℕ} (h : Draining σ (x :: rem) σ₁) :
    Finishes P i (fun r σ₂ => r = .ok (n + 1) ∧ Draining σ rem σ₂) (drainOne n x) σ₁ := by
  have howed : x.2.owed σ.now := by
    have hmem : (x.1, x.2) ∈ σ₁.rollbacks.findMany fun _ r => r.owed σ.now := by rw [h.queue]; simp
    exact (Table.mem_findMany.1 hmem).2
  refine ends_bind (ends_catching ((finishes_acquireLease h.head).mono ?_))
  rintro a σ₂ ⟨rfl, lease, hσ₂⟩
  simp only [Bool.not_true, Bool.false_eq_true, if_false]
  refine ends_catching (finishes_await_bind rfl (ends_bind (ends_catching (finishes_await_bind rfl (ends_ret
    (ends_ret ⟨rfl, ?_⟩))))))
  obtain ⟨hsame, hrollbacks⟩ := operatorRollback_same (σ := σ₂) x.1.operatorId x.2.transactionId
  have hclaimed : σ₂.rollbacks.row x.1 = some { x.2 with status := .draining, leaseUntil := lease } := by
    rw [hσ₂]
    exact updateRollbacks_self h.head (by simp [RollbackWhere.holds])
  refine h.step howed ?_ ?_ (fun ref hne => ?_) (fun o k => ?_) ?_
  · exact (congrArg Table.ids hrollbacks).trans (by rw [hσ₂]; rfl)
  · rw [← hrollbacks] at hclaimed
    rw [updateRollbacks_self hclaimed (by simp [RollbackWhere.holds])]
    rfl
  · rw [updateRollbacks_ne hne, hrollbacks, hσ₂, updateRollbacks_ne hne]
  · have hoperator : σ₂.operator = σ₁.operator := by rw [hσ₂]; rfl
    rw [← hoperator]
    exact operatorRollback_operator
  · have hclaim : SameBooks σ₁ σ₂ := by rw [hσ₂]; exact ⟨rfl, rfl, rfl, rfl, rfl, rfl⟩
    exact (hclaim.trans hsame).trans ⟨rfl, rfl, rfl, rfl, rfl, rfl⟩

/-- A pass confirms the first rollbacks that are owed, up to its limit, and tells how many they are. -/
lemma finishes_drainPending (h : Draining σ rem σ₁) :
    Finishes P i (fun r σ₂ => r = .ok (rem.take limit).length ∧ Draining σ (rem.drop limit) σ₂)
      (drainPending true limit) σ₁ := by
  have hp : perform P i (.findOwedRollbacks σ.now limit) σ₁ = some (.ok (rem.take limit), σ₁) := by
    simp only [perform, h.queue]
  have hnow : perform P i .dateNow σ₁ = some (.ok σ.now, σ₁) := by simp only [perform, h.books.now]
  unfold drainPending
  simp only [Bool.not_true, Bool.false_eq_true, if_false]
  refine ends_bind (ends_catching (finishes_await_bind hnow (finishes_await hp ?_)))
  exact ends_pass (fun n x xs b h => finishes_drainOne h) h

theorem rollbacks_drained {k : ℕ} (hk : (σ.rollbacks.count fun _ r => r.owed σ.now) ≤ k * limit) :
    Finishes P i (fun r σ' => r = .ok (σ.rollbacks.count fun _ r => r.owed σ.now) ∧
      (∀ ref, σ'.rollbacks.row ref = confirmed σ ref) ∧
      (∀ o k, Sent σ [] o k → ∀ t, σ'.operator o k = some t → ¬ t.applied) ∧
      (∀ o k, ¬ Sent σ [] o k → σ'.operator o k = σ.operator o k) ∧ SameBooks σ σ')
      ((drainPending true limit).passes k) σ := by
  refine (ends_passes (fun rem σ₁ h => finishes_drainPending h) draining_start hk).mono ?_
  rintro r σ' ⟨rfl, h⟩
  exact ⟨rfl, h.done, h.reversed, h.untouched, h.books⟩

open Scenario in
def owingRollback : State :=
  { staked .completed .voided with
    rollbacks := (∅ : Table RollbackRef WalletRollback).insert refundRef ⟨.debit slot, some 100, .pending, 0, none⟩
    operator := fun o k => if o = 1 ∧ k = .debit slot then some ⟨0, -100, 0, true⟩ else none }

open Scenario in
theorem owed_rollback_drained : Finishes (params true false) 0 (fun r σ' => r = .ok 1 ∧
    ∀ t, σ'.operator 1 (.debit slot) = some t → ¬ t.applied) ((drainPending true 50).passes 1) owingRollback :=
  (rollbacks_drained (by decide)).mono fun r σ' h =>
    ⟨h.1, h.2.2.1 1 (.debit slot) ⟨refundRef, _, rfl, rfl, by simp, rfl, rfl⟩⟩

end Drains

end VaultRun.Safety.Recovery
