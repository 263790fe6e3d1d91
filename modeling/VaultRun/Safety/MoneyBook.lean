import VaultRun.Data.Sum
import VaultRun.Game.InHand
import VaultRun.Game.Unhindered
import VaultRun.Game.Scenario

/-!
The internal book balances whenever no call is in flight: what was debited and not refunded is what the bets hold,
and what was paid out is what the won bets were worth, as long as no statement fails.
-/

namespace VaultRun.Safety.MoneyBook

open VaultRun.Concurrency VaultRun.Data VaultRun.Game Program

/-- No statement fails, and the calls are those of players and rounds. -/
@[reducible] def unfailing : GameRule where
  act _ o _ _ := o ≠ .lost ∧ o ≠ .unacked ∧ o ≠ .refused ∧ ∀ b, o ≠ .timedOut b
  kill _ _ := False
  env _ e _ := e.ofBetting

def bet : Task → Option ℕ
  | .idle => none
  | .reserved b _ | .debited b _ | .flipping b | .refunding b _ | .paying b _ _ => some b

def Holds (σ : State) : Task → Prop
  | .idle => True
  | .reserved b d => σ.ledger.row (.debit d.slot) = none ∧
      ∃ x, σ.bets.row b = some x ∧ x.terms = d ∧ x.status = .reserving
  | .debited b d => σ.ledger.row (.debit d.slot) ≠ none ∧
      ∃ x, σ.bets.row b = some x ∧ x.terms = d ∧ x.status = .reserving
  | .flipping _ => False
  | .refunding b y => ∃ x, σ.bets.row b = some x ∧ x.terms = y.terms ∧ x.status = .cancelled
  | .paying b y p => ∃ x, σ.bets.row b = some x ∧ x.terms = y.terms ∧ x.payout = p ∧
      (x.status = .cashedOut ∨ x.status = .payoutPending ∧ p ≤ 0)

/-- A bet is placed by a call, or its stake has been debited; what it is owed has been posted, or a call has it in
hand. -/
def Stands (σ : State) (H : ℕ → Hand) (b : ℕ) (x : Bet) : Prop :=
  match x.status with
  | .reserving => ∃ i, (H i).task.placing = some b
  | .active | .busted | .payoutPending => σ.ledger.row (.debit x.slot) ≠ none
  | .cancelled => σ.ledger.row (.debit x.slot) ≠ none ∧
      (σ.ledger.row (.refund b) ≠ none ∨ ∃ i y, (H i).task = .refunding b y)
  | .cashedOut => σ.ledger.row (.debit x.slot) ≠ none ∧
      (σ.ledger.row (.payout b) ≠ none ∨ ∃ i y p, (H i).task = .paying b y p)
  | _ => False

/-- A row of the ledger is the stake, the refund or the payout of its bet, or it is not about a bet. -/
def Entered (σ : State) (l : LedgerTransaction) : Key → Prop
  | .debit s => ∃ b x, σ.bets.row b = some x ∧ x.slot = s ∧ (σ.wallets.row x.walletId).isSome ∧ 0 < x.amount ∧
      l.type = .betDebit ∧ l.refId = some b ∧ l.amount = -x.amount
  | .refund b => ∃ x, σ.bets.row b = some x ∧ x.status = .cancelled ∧
      l.type = .refund ∧ l.refId = some b ∧ l.amount = x.amount
  | .payout b => ∃ x, σ.bets.row b = some x ∧ x.status = .cashedOut ∧ 0 < x.payout ∧
      l.type = .payoutCredit ∧ l.refId = some b ∧ l.amount = x.payout
  | _ => l.type = .adjustment

structure Book (σ : State) (H : ℕ → Hand) : Prop where
  funds : ∀ k y, σ.wallets.row k = some y → 0 ≤ y.balance
  unfailed : ∀ i, (H i).failed = false
  found : ∀ i b y, (H i).found = some (b, y) →
    b < σ.bets.next ∧ ∀ x, σ.bets.row b = some x → x.terms = y.terms
  tasks : ∀ i, Holds σ (H i).task
  sole : ∀ i j b, (H i).task.placing = some b → (H j).task.placing = some b → i = j
  bets : ∀ b x, σ.bets.row b = some x → Stands σ H b x
  rows : ∀ k l, σ.ledger.row k = some l → Entered σ l k

variable {P : Params} {σ σ' : State} {H : ℕ → Hand} {m : Hand} {b b' i j k : ℕ} {slot : Slot} {x y : Bet} {t : Task}

lemma slot_of_terms (h : x.terms = y.terms) : x.slot = y.slot := congrArg NewBet.slot h

lemma bet_of_placing (h : t.placing = some b) : bet t = some b := by
  cases t <;> first | exact h | cases h

lemma placing_idle : Task.idle.placing ≠ some b := by simp [Task.placing]

/-- Nothing changes but bet `b`, which has this slot, and the rows of the ledger about it. -/
structure Local (σ σ' : State) (b : ℕ) (slot : Slot) : Prop where
  next : σ.bets.next ≤ σ'.bets.next
  ofSlot : ∀ c x, σ.bets.row c = some x → (x.slot = slot ↔ c = b)
  terms : ∀ x', b < σ.bets.next → σ'.bets.row b = some x' → ∃ x, σ.bets.row b = some x ∧ x'.terms = x.terms
  bets : ∀ c, c ≠ b → σ'.bets.row c = σ.bets.row c
  rows : ∀ k, k ≠ .debit slot → k ≠ .refund b → k ≠ .payout b → σ'.ledger.row k = σ.ledger.row k
  kept : ∀ k, σ.ledger.row k ≠ none → σ'.ledger.row k ≠ none
  wallets : ∀ k, (σ.wallets.row k).isSome → (σ'.wallets.row k).isSome
  funds : ∀ k y, σ'.wallets.row k = some y → 0 ≤ y.balance

section Local

variable (hl : Local σ σ' b slot)
include hl

lemma Holds.other (ht : Holds σ t) (hb : bet t ≠ some b) : Holds σ' t := by
  cases t with
  | idle => trivial
  | flipping => exact ht
  | reserved c d | debited c d =>
      obtain ⟨hrow, x, hx, rfl, hst⟩ := ht
      have hc : c ≠ b := fun h => hb (congrArg some h)
      have hdebit : x.slot ≠ slot := fun heq => hc ((hl.ofSlot c x hx).1 heq)
      have hkey : σ'.ledger.row (.debit x.slot) = σ.ledger.row (.debit x.slot) :=
        hl.rows _ (fun h => hdebit (Key.debit.inj h)) nofun nofun
      exact ⟨hkey ▸ hrow, x, (hl.bets c hc).trans hx, rfl, hst⟩
  | refunding c z | paying c z p =>
      have hc : c ≠ b := fun h => hb (congrArg some h)
      rwa [Holds, hl.bets c hc]

lemma Stands.other {H' : ℕ → Hand} {c : ℕ} (h : Stands σ H c x)
    (hH : ∀ j, bet (H j).task = some c → (H' j).task = (H j).task) : Stands σ' H' c x := by
  unfold Stands at h ⊢
  split at h
  · obtain ⟨j, hj⟩ := h
    exact ⟨j, by rw [hH j (bet_of_placing hj), hj]⟩
  · exact hl.kept _ h
  · exact hl.kept _ h
  · exact hl.kept _ h
  · refine ⟨hl.kept _ h.1, h.2.imp (hl.kept _) fun ⟨j, z, hj⟩ => ⟨j, z, ?_⟩⟩
    rw [hH j (by rw [hj]; rfl), hj]
  · refine ⟨hl.kept _ h.1, h.2.imp (hl.kept _) fun ⟨j, z, p, hj⟩ => ⟨j, z, p, ?_⟩⟩
    rw [hH j (by rw [hj]; rfl), hj]
  · exact h

lemma Entered.other {l : LedgerTransaction} {k : Key} (h : Entered σ l k) (hd : k ≠ .debit slot)
    (hr : k ≠ .refund b) (hp : k ≠ .payout b) : Entered σ' l k := by
  cases k with
  | debit s =>
      obtain ⟨c, x, hx, rfl, hw, hrest⟩ := h
      have hc : c ≠ b := fun heq => hd (congrArg Key.debit ((hl.ofSlot c x hx).2 heq))
      exact ⟨c, x, (hl.bets c hc).trans hx, rfl, hl.wallets _ hw, hrest⟩
  | refund c =>
      have hc : c ≠ b := fun heq => hr (congrArg Key.refund heq)
      rwa [Entered, hl.bets c hc]
  | payout c =>
      have hc : c ≠ b := fun heq => hp (congrArg Key.payout heq)
      rwa [Entered, hl.bets c hc]
  | _ => exact h

lemma Book.step (h : Book σ H) (hfailed : m.failed = false) (hfound : m.found = (H i).found)
    (hold : bet (H i).task = none ∨ bet (H i).task = some b) (hnew : bet m.task = none ∨ bet m.task = some b)
    (hm : Holds σ' m.task) (hothers : ∀ j, j ≠ i → bet (H j).task = some b → Holds σ' (H j).task)
    (hsole : ∀ j, j ≠ i → m.task.placing = some b → (H j).task.placing ≠ some b)
    (hbet : ∀ x, σ'.bets.row b = some x → Stands σ' (Function.update H i m) b x)
    (hrows : ∀ k l, k = .debit slot ∨ k = .refund b ∨ k = .payout b → σ'.ledger.row k = some l → Entered σ' l k) :
    Book σ' (Function.update H i m) := by
  have hH (j : ℕ) : Function.update H i m j = if j = i then m else H j := by
    by_cases hj : j = i
    · subst hj
      simp
    · simp [hj]
  refine ⟨hl.funds, fun j => ?_, fun j c y hj => ?_, fun j => ?_, fun j j' c hj hj' => ?_, fun c x hc => ?_,
    fun k l hk => ?_⟩
  · rw [hH]
    split
    · exact hfailed
    · exact h.unfailed j
  · have hj : (H j).found = some (c, y) := by
      rw [hH] at hj
      split at hj
      · rename_i heq
        exact heq ▸ hfound ▸ hj
      · exact hj
    obtain ⟨hlt, hterms⟩ := h.found j c y hj
    refine ⟨hlt.trans_le hl.next, fun x hx => ?_⟩
    by_cases hc : c = b
    · subst hc
      obtain ⟨z, hz, heq⟩ := hl.terms x hlt hx
      exact heq.trans (hterms z hz)
    · exact hterms x (hl.bets c hc ▸ hx)
  · rw [hH]
    split
    · exact hm
    · by_cases hb : bet (H j).task = some b
      · exact hothers j ‹_› hb
      · exact Holds.other hl (h.tasks j) hb
  · rw [hH] at hj hj'
    have hb (hc : m.task.placing = some c) : c = b := by
      have hbet := bet_of_placing hc
      rcases hnew with hnone | hsome
      · cases hbet.symm.trans hnone
      · exact Option.some.inj (hbet.symm.trans hsome)
    split at hj <;> split at hj'
    · omega
    · obtain rfl := hb hj
      exact absurd hj' (hsole j' ‹_› hj)
    · obtain rfl := hb hj'
      exact absurd hj (hsole j ‹_› hj')
    · exact h.sole j j' c hj hj'
  · by_cases hcb : c = b
    · subst hcb
      exact hbet x hc
    · refine Stands.other hl (h.bets c x (hl.bets c hcb ▸ hc)) fun j hj => ?_
      rw [hH, if_neg]
      rintro rfl
      rcases hold with hnone | hsome
      · cases hj.symm.trans hnone
      · exact hcb (Option.some.inj (hj.symm.trans hsome))
  · by_cases hkey : k = .debit slot ∨ k = .refund b ∨ k = .payout b
    · exact hrows k l hkey hk
    · simp only [not_or] at hkey
      rw [hl.rows k hkey.1 hkey.2.1 hkey.2.2] at hk
      exact Entered.other hl (h.rows k l hk) hkey.1 hkey.2.1 hkey.2.2

end Local

section Book

variable (h : Book σ H)
include h

lemma Book.debited (hx : σ.bets.row b = some x) (hrow : σ.ledger.row (.debit x.slot) ≠ none) :
    (σ.wallets.row x.walletId).isSome ∧ 0 < x.amount ∧ ∃ l, σ.ledger.row (.debit x.slot) = some l ∧
      l.type = .betDebit ∧ l.refId = some b ∧ l.amount = -x.amount := by
  obtain ⟨l, hl⟩ := Option.ne_none_iff_exists'.1 hrow
  obtain ⟨c, z, hz, hslot, hw, hamount, hrest⟩ := h.rows _ l hl
  obtain rfl := σ.bets.unique c b z x hz hx hslot
  obtain rfl := Option.some.inj (hz.symm.trans hx)
  exact ⟨hw, hamount, l, hl, hrest⟩

lemma Book.idle (hc : (H i).Clean) : (H i).task = .idle := by
  rcases hc with hidle | hfailed | ⟨b, y, ht, hamount⟩
  · exact hidle
  · rw [h.unfailed i] at hfailed
    cases hfailed
  · have htask := h.tasks i
    rw [ht] at htask
    obtain ⟨x, hx, hterms, hst⟩ := htask
    have hstands := h.bets b x hx
    rw [Stands, hst] at hstands
    obtain ⟨-, hpos, -⟩ := h.debited hx hstands.1
    have hsame : x.amount = y.amount := congrArg NewBet.amount hterms
    omega

lemma Book.placing (ht : (H i).task.placing = some b) :
    ∃ x, σ.bets.row b = some x ∧ x.status = .reserving := by
  have htask := h.tasks i
  generalize (H i).task = t at ht htask
  cases t with
  | reserved c d | debited c d =>
      obtain rfl := Option.some.inj ht
      obtain ⟨-, x, hx, -, hst⟩ := htask
      exact ⟨x, hx, hst⟩
  | flipping => exact htask.elim
  | _ => cases ht

lemma Book.active (hx : σ.bets.row b = some x) (hst : x.status = .active) : bet (H i).task ≠ some b := by
  intro hb
  have htask := h.tasks i
  generalize (H i).task = t at hb htask
  cases t with
  | idle => cases hb
  | flipping => exact htask
  | reserved c d | debited c d =>
      obtain rfl := Option.some.inj hb
      obtain ⟨-, z, hz, -, hst'⟩ := htask
      obtain rfl := Option.some.inj (hx.symm.trans hz)
      cases hst.symm.trans hst'
  | refunding c y =>
      obtain rfl := Option.some.inj hb
      obtain ⟨z, hz, -, hst'⟩ := htask
      obtain rfl := Option.some.inj (hx.symm.trans hz)
      cases hst.symm.trans hst'
  | paying c y p =>
      obtain rfl := Option.some.inj hb
      obtain ⟨z, hz, -, -, hst' | ⟨hst', -⟩⟩ := htask <;> obtain rfl := Option.some.inj (hx.symm.trans hz)
      · cases hst.symm.trans hst'
      · cases hst.symm.trans hst'

end Book

section Update

variable {v : BetWhere} {d : BetData} {st : BetStatus} {n : ℕ}

lemma updateBets_none (hv : ∀ c x, σ.bets.row c = some x → v.holds σ.rounds c x = false) :
    σ.updateBets v d = σ := by
  have hbets : (σ.updateBets v d).bets = σ.bets := by
    refine Records.eq_of_rows rfl rfl fun c _ => ?_
    rw [updateBets_row]
    cases hc : σ.bets.row c with
    | none => rfl
    | some x => simp [hv c x hc]
  have hσ : σ.updateBets v d = { σ with bets := (σ.updateBets v d).bets } := rfl
  rw [hσ, hbets]

lemma local_of_update (h : Book σ H) (hv : v.id = some b) (hx : σ.bets.row b = some x) :
    Local σ (σ.updateBets v d) b x.slot := by
  refine ⟨le_rfl, fun c z hz => ⟨fun heq => σ.bets.unique c b z x hz hx heq, ?_⟩, fun x' _ hx' => ⟨x, hx, ?_⟩,
    fun c hc => ?_, fun k _ _ _ => rfl, fun k hk => hk, fun k hk => hk, h.funds⟩
  · rintro rfl
    rw [Option.some.inj (hz.symm.trans hx)]
  · rw [updateBets_row, hx] at hx'
    obtain rfl := Option.some.inj hx'
    dsimp only
    split <;> rfl
  · rw [updateBets_row]
    cases σ.bets.row c with
    | none => rfl
    | some z => simp [BetWhere.holds, hv, Ne.symm hc]

lemma swap_cases (σ : State) (b : ℕ) (st : BetStatus) :
    (∃ x, σ.bets.row b = some x ∧ x.status = st ∧
      σ.bets.count (BetWhere.holds { id := some b, status := some [st] } σ.rounds) ≠ 0 ∧
      ∀ d, (σ.updateBets { id := some b, status := some [st] } d).bets.row b = some (d.apply σ.now x)) ∨
    σ.bets.count (BetWhere.holds { id := some b, status := some [st] } σ.rounds) = 0 ∧
      ∀ d, σ.updateBets { id := some b, status := some [st] } d = σ := by
  by_cases hx : ∃ x, σ.bets.row b = some x ∧ x.status = st
  · obtain ⟨x, hx, hst⟩ := hx
    have hw : BetWhere.holds { id := some b, status := some [st] } σ.rounds b x = true := by
      simp [BetWhere.holds, hst]
    exact .inl ⟨x, hx, hst, Table.count_ne_zero.2 ⟨b, x, hx, hw⟩, fun d => by simp [hx, hw]⟩
  · have hnone (c : ℕ) (z : Bet) (hz : σ.bets.row c = some z) :
        BetWhere.holds { id := some b, status := some [st] } σ.rounds c z = false := by
      by_contra hw
      obtain ⟨rfl, hst⟩ : b = c ∧ z.status = st := by simpa [BetWhere.holds] using hw
      exact hx ⟨z, hz, hst⟩
    exact .inr ⟨Table.count_eq_zero.2 fun c z hz => by simp [hnone c z hz], fun d => updateBets_none hnone⟩

lemma entered_of_update (h : Book σ H) (hx : σ.bets.row b = some x)
    (hrow : (σ.updateBets v d).bets.row b = some (d.apply σ.now x))
    (hkeep : x.status = .cancelled ∨ x.status = .cashedOut ∧ 0 < x.payout →
      (d.apply σ.now x).status = x.status ∧ (d.apply σ.now x).payout = x.payout)
    {k : Key} {l : LedgerTransaction} (hk : k = .debit x.slot ∨ k = .refund b ∨ k = .payout b)
    (hl : σ.ledger.row k = some l) : Entered (σ.updateBets v d) l k := by
  have hentered := h.rows k l hl
  rcases hk with rfl | rfl | rfl
  · obtain ⟨c, z, hz, hslot, hrest⟩ := hentered
    obtain rfl := σ.bets.unique c b z x hz hx hslot
    obtain rfl := Option.some.inj (hz.symm.trans hx)
    exact ⟨c, _, hrow, rfl, hrest⟩
  · obtain ⟨z, hz, hst, hrest⟩ := hentered
    obtain rfl := Option.some.inj (hz.symm.trans hx)
    exact ⟨_, hrow, (hkeep (.inl hst)).1.trans hst, hrest⟩
  · obtain ⟨z, hz, hst, hpos, htype, href, hamount⟩ := hentered
    obtain rfl := Option.some.inj (hz.symm.trans hx)
    obtain ⟨hst', hpayout⟩ := hkeep (.inr ⟨hst, hpos⟩)
    exact ⟨_, hrow, hst'.trans hst, hpayout ▸ hpos, htype, href, hamount.trans hpayout.symm⟩

lemma book_claim (h : Book σ H) {d : BetData} {t : Bet → Task} (hm : (H i).Clean)
    (hx : σ.bets.row b = some x) (hst : x.status = .active)
    (hrow : (σ.updateBets { id := some b, status := some [.active] } d).bets.row b = some (d.apply σ.now x))
    (ht : bet (t y) = some b) (hplacing : (t y).placing = none)
    (hholds : Holds (σ.updateBets { id := some b, status := some [.active] } d) (t y))
    (hstands : ∀ H' : ℕ → Hand, (H' i).task = t y →
      Stands (σ.updateBets { id := some b, status := some [.active] } d) H' b (d.apply σ.now x)) :
    Book (σ.updateBets { id := some b, status := some [.active] } d)
      (Function.update H i { H i with task := t y }) := by
  refine Book.step (local_of_update h rfl hx) h (h.unfailed i) rfl (.inl (by rw [h.idle hm]; rfl)) (.inr ht) hholds
    (fun j _ hj => absurd hj (h.active hx hst)) (fun j _ hj => ?_) (fun z hz => ?_) fun k l hk hl =>
    entered_of_update h hx hrow (by simp [hst]) hk hl
  · rw [hplacing] at hj
    cases hj
  · obtain rfl := Option.some.inj (hrow.symm.trans hz)
    exact hstands _ (by simp)

lemma book_cancel (h : Book σ H) (hm : (H i).Clean) (hfound : (H i).found = some (b, y)) :
    Book (σ.updateBets { id := some b, status := some [.active] } { status := some .cancelled, settles := true })
      (Function.update H i ((H i).learn (.claimCancel b)
        (.ok (σ.bets.count (BetWhere.holds { id := some b, status := some [.active] } σ.rounds))))) := by
  rcases swap_cases σ b .active with ⟨x, hx, hst, hn, hrow⟩ | ⟨hn, hsame⟩
  · have hlearn : (H i).learn (.claimCancel b)
        (.ok (σ.bets.count (BetWhere.holds { id := some b, status := some [.active] } σ.rounds))) =
        { H i with task := .refunding b y } := by
      simp [Hand.learn, Hand.swapped, Hand.claim, hn, hfound]
    have hdebit : σ.ledger.row (.debit x.slot) ≠ none := by
      have hs := h.bets b x hx
      rwa [Stands, hst] at hs
    rw [hlearn]
    exact book_claim (t := .refunding b) h hm hx hst (hrow _) rfl rfl
      ⟨_, hrow _, (h.found i b y hfound).2 x hx, rfl⟩ fun H' hH' => ⟨hdebit, .inr ⟨i, y, hH'⟩⟩
  · rw [hn, hsame]
    simpa [Hand.learn, Hand.swapped] using h

lemma book_cashOut {mult : ℕ} {p : ℤ} (h : Book σ H) (hm : (H i).Clean) (hfound : (H i).found = some (b, y)) :
    Book (σ.updateBets { id := some b, status := some [.active] }
        { status := some .cashedOut, cashoutMult := some mult, payout := some p, settles := true })
      (Function.update H i ((H i).learn (.claimWin b mult p)
        (.ok (σ.bets.count (BetWhere.holds { id := some b, status := some [.active] } σ.rounds))))) := by
  rcases swap_cases σ b .active with ⟨x, hx, hst, hn, hrow⟩ | ⟨hn, hsame⟩
  · have hlearn : (H i).learn (.claimWin b mult p)
        (.ok (σ.bets.count (BetWhere.holds { id := some b, status := some [.active] } σ.rounds))) =
        { H i with task := .paying b y p } := by
      simp [Hand.learn, Hand.swapped, Hand.claim, hn, hfound]
    have hdebit : σ.ledger.row (.debit x.slot) ≠ none := by
      have hs := h.bets b x hx
      rwa [Stands, hst] at hs
    rw [hlearn]
    exact book_claim (t := (.paying b · p)) h hm hx hst (hrow _) rfl rfl
      ⟨_, hrow _, (h.found i b y hfound).2 x hx, rfl, .inl rfl⟩ fun H' hH' => ⟨hdebit, .inr ⟨i, y, p, hH'⟩⟩
  · rw [hn, hsame]
    simpa [Hand.learn, Hand.swapped] using h

lemma Book.reserving (h : Book σ H) (ht : (H i).task.placing = some b) (hx : σ.bets.row b = some x)
    (hst : x.status = .reserving) (hj : j ≠ i) : bet (H j).task ≠ some b := by
  intro hb
  have hother := h.tasks j
  generalize htj : (H j).task = t at hb hother
  cases t with
  | idle => cases hb
  | flipping => exact hother
  | reserved c d | debited c d =>
      obtain rfl := Option.some.inj hb
      exact hj (h.sole j i c (by rw [htj]; rfl) ht)
  | refunding c y =>
      obtain rfl := Option.some.inj hb
      obtain ⟨z, hz, -, hst'⟩ := hother
      obtain rfl := Option.some.inj (hx.symm.trans hz)
      cases hst.symm.trans hst'
  | paying c y p =>
      obtain rfl := Option.some.inj hb
      obtain ⟨z, hz, -, -, hst' | ⟨hst', -⟩⟩ := hother <;> obtain rfl := Option.some.inj (hx.symm.trans hz)
      · cases hst.symm.trans hst'
      · cases hst.symm.trans hst'

lemma book_activate {tx : Key} {d : NewBet} (h : Book σ H) (ht : (H i).task = .debited b d) :
    Book (σ.updateBets { id := some b, status := some [.reserving] } { status := some .active, debitTxId := some tx })
      (Function.update H i { H i with task := .idle }) := by
  have htask := h.tasks i
  rw [ht] at htask
  obtain ⟨hdebit, x, hx, hterms, hst⟩ := htask
  have hplacing : (H i).task.placing = some b := by rw [ht]; rfl
  rcases swap_cases σ b .reserving with ⟨z, hz, -, -, hrow⟩ | ⟨hn, -⟩
  · obtain rfl := Option.some.inj (hz.symm.trans hx)
    refine Book.step (local_of_update h rfl hz) h (h.unfailed i) rfl (.inr (by rw [ht]; rfl)) (.inl rfl) trivial
      (fun j hj hb => absurd hb (h.reserving hplacing hz hst hj)) (fun j _ hj => absurd hj placing_idle)
      (fun z' hz' => ?_) fun k l hk hl => entered_of_update h hz (hrow _) (by simp [hst]) hk hl
    obtain rfl := Option.some.inj ((hrow _).symm.trans hz')
    subst hterms
    exact hdebit
  · exact absurd (Table.count_eq_zero.1 hn b x hx) (by simp [BetWhere.holds, hst])

lemma book_pending {p : ℤ} (h : Book σ H) (ht : (H i).task = .paying b y p) (hp : p ≤ 0) :
    Book (σ.updateBets { id := some b } { status := some .payoutPending })
      (Function.update H i { H i with task := .idle }) := by
  have htask := h.tasks i
  rw [ht] at htask
  obtain ⟨x, hx, hterms, hpayout, hst⟩ := htask
  have hrow : (σ.updateBets { id := some b } { status := some .payoutPending }).bets.row b =
      some (({ status := some .payoutPending } : BetData).apply σ.now x) := by
    simp [hx]
  have hdebit : σ.ledger.row (.debit x.slot) ≠ none := by
    have hs := h.bets b x hx
    rcases hst with hst | ⟨hst, -⟩ <;> rw [Stands, hst] at hs
    · exact hs.1
    · exact hs
  refine Book.step (local_of_update h rfl hx) h (h.unfailed i) rfl (.inr (by rw [ht]; rfl)) (.inl rfl) trivial
    (fun j hj hb => ?_) (fun j _ hj => absurd hj placing_idle) (fun z hz => ?_) fun k l hk hl =>
    entered_of_update h hx hrow ?_ hk hl
  · have hother := h.tasks j
    generalize (H j).task = t at hb hother
    cases t with
    | idle => cases hb
    | flipping => exact hother
    | reserved c d | debited c d =>
        obtain rfl := Option.some.inj hb
        obtain ⟨-, z, hz, -, hst'⟩ := hother
        obtain rfl := Option.some.inj (hx.symm.trans hz)
        simp [hst'] at hst
    | refunding c y' =>
        obtain rfl := Option.some.inj hb
        obtain ⟨z, hz, -, hst'⟩ := hother
        obtain rfl := Option.some.inj (hx.symm.trans hz)
        simp [hst'] at hst
    | paying c y' p' =>
        obtain rfl := Option.some.inj hb
        obtain ⟨z, hz, hterms', hpayout', -⟩ := hother
        obtain rfl := Option.some.inj (hx.symm.trans hz)
        exact ⟨_, hrow, hterms', hpayout', .inr ⟨rfl, hpayout'.symm.trans hpayout ▸ hp⟩⟩
  · obtain rfl := Option.some.inj (hrow.symm.trans hz)
    exact hdebit
  · rintro (hst' | ⟨-, hpos⟩)
    · simp [hst'] at hst
    · omega

end Update

def Keeps (x x' : Bet) : Prop :=
  x'.terms = x.terms ∧ x'.payout = x.payout ∧ (x'.status = x.status ∨ x.status = .active ∧ x'.status = .busted)

lemma Keeps.refl (x : Bet) : Keeps x x := ⟨rfl, rfl, .inl rfl⟩

section Quiet

variable {σ' : State} {H' : ℕ → Hand}

lemma Book.quiet (h : Book σ H) (hnext : σ'.bets.next = σ.bets.next) (hledger : σ'.ledger = σ.ledger)
    (hwallets : σ'.wallets = σ.wallets) (hbets : ∀ b, Option.Rel Keeps (σ.bets.row b) (σ'.bets.row b)) :
    Book σ' H := by
  have hto (b : ℕ) (x : Bet) (hx : σ.bets.row b = some x) : ∃ x', σ'.bets.row b = some x' ∧ Keeps x x' := by
    have hrel := hbets b
    rw [hx] at hrel
    generalize σ'.bets.row b = z at hrel ⊢
    cases hrel with
    | some hk => exact ⟨_, rfl, hk⟩
  have hof (b : ℕ) (x' : Bet) (hx' : σ'.bets.row b = some x') : ∃ x, σ.bets.row b = some x ∧ Keeps x x' := by
    have hrel := hbets b
    rw [hx'] at hrel
    generalize σ.bets.row b = z at hrel ⊢
    cases hrel with
    | some hk => exact ⟨_, rfl, hk⟩
  refine ⟨by rw [hwallets]; exact h.funds, h.unfailed, fun i b y hi => ?_, fun i => ?_, h.sole, fun b x' hx' => ?_,
    fun k l hk => ?_⟩
  · obtain ⟨hlt, hterms⟩ := h.found i b y hi
    refine ⟨hnext ▸ hlt, fun x' hx' => ?_⟩
    obtain ⟨x, hx, hsame, -⟩ := hof b x' hx'
    exact hsame.trans (hterms x hx)
  · have htask := h.tasks i
    generalize (H i).task = t at htask
    cases t with
    | idle => trivial
    | flipping => exact htask
    | reserved c d | debited c d =>
        obtain ⟨hrow, x, hx, hterms, hst⟩ := htask
        obtain ⟨x', hx', hsame, -, hst'⟩ := hto c x hx
        exact ⟨hledger ▸ hrow, x', hx', hsame.trans hterms, by simpa [hst] using hst'⟩
    | refunding c y =>
        obtain ⟨x, hx, hterms, hst⟩ := htask
        obtain ⟨x', hx', hsame, -, hst'⟩ := hto c x hx
        exact ⟨x', hx', hsame.trans hterms, by simpa [hst] using hst'⟩
    | paying c y p =>
        obtain ⟨x, hx, hterms, hpayout, hst⟩ := htask
        obtain ⟨x', hx', hsame, hpayout', hst'⟩ := hto c x hx
        refine ⟨x', hx', hsame.trans hterms, hpayout'.trans hpayout, ?_⟩
        rcases hst' with hst' | ⟨hact, -⟩
        · rwa [hst']
        · simp [hact] at hst
  · obtain ⟨x, hx, hsame, -, hst⟩ := hof b x' hx'
    have hstands := h.bets b x hx
    have hslot : x'.slot = x.slot := slot_of_terms hsame
    rcases hst with hst | ⟨hact, hbust⟩
    · rw [Stands, hst, hslot, hledger]
      exact hstands
    · rw [Stands, hact] at hstands
      rw [Stands, hbust, hslot, hledger]
      exact hstands
  · rw [hledger] at hk
    have hentered := h.rows k l hk
    cases k with
    | debit s =>
        obtain ⟨b, x, hx, hslot, hw, hamount, htype, href, hneg⟩ := hentered
        obtain ⟨x', hx', hsame, -⟩ := hto b x hx
        have hwallet : x'.walletId = x.walletId := congrArg NewBet.walletId hsame
        have hstake : x'.amount = x.amount := congrArg NewBet.amount hsame
        exact ⟨b, x', hx', (slot_of_terms hsame).trans hslot, by rwa [hwallet, hwallets], by rwa [hstake], htype, href,
          by rwa [hstake]⟩
    | refund b =>
        obtain ⟨x, hx, hst, htype, href, hamount⟩ := hentered
        obtain ⟨x', hx', hsame, -, hst'⟩ := hto b x hx
        have hstake : x'.amount = x.amount := congrArg NewBet.amount hsame
        exact ⟨x', hx', by simpa [hst] using hst', htype, href, by rwa [hstake]⟩
    | payout b =>
        obtain ⟨x, hx, hst, hpos, htype, href, hamount⟩ := hentered
        obtain ⟨x', hx', -, hpayout, hst'⟩ := hto b x hx
        exact ⟨x', hx', by simpa [hst] using hst', by rwa [hpayout], htype, href, by rwa [hpayout]⟩
    | _ => exact hentered

lemma Book.learns (h : Book σ H) {z : Option (ℕ × Bet)} (hz : ∀ b y, z = some (b, y) →
      b < σ.bets.next ∧ ∀ x, σ.bets.row b = some x → x.terms = y.terms) :
    Book σ (Function.update H i { H i with found := z }) := by
  have htask (j : ℕ) : (Function.update H i { H i with found := z } j).task = (H j).task := by
    by_cases hj : j = i
    · subst hj
      simp
    · simp [hj]
  refine ⟨h.funds, fun j => ?_, fun j b y hj => ?_, fun j => ?_, fun j j' b => ?_, fun b x hx => ?_, h.rows⟩
  · by_cases hj : j = i
    · subst hj
      simpa using h.unfailed j
    · simpa [hj] using h.unfailed j
  · by_cases hji : j = i
    · subst hji
      exact hz b y (by simpa using hj)
    · exact h.found j b y (by simpa [hji] using hj)
  · rw [htask]
    exact h.tasks j
  · rw [htask, htask]
    exact h.sole j j' b
  · have hstands := h.bets b x hx
    unfold Stands at hstands ⊢
    simpa only [htask] using hstands

end Quiet

section Rows

variable {d : NewBet}

lemma book_forget (h : Book σ H) (ht : (H i).task = .reserved b d) :
    Book { σ with bets := σ.bets.erase b } (Function.update H i { H i with task := .idle }) := by
  have htask := h.tasks i
  rw [ht] at htask
  obtain ⟨hdebit, x, hx, hterms, hst⟩ := htask
  have hslot : d.slot = x.slot := (congrArg NewBet.slot hterms).symm
  have hl : Local σ { σ with bets := σ.bets.erase b } b x.slot := by
    refine ⟨le_rfl, fun c z hz => ⟨fun heq => σ.bets.unique c b z x hz hx heq, ?_⟩, fun x' _ hx' => ?_,
      fun c hc => by simp [hc], fun k _ _ _ => rfl, fun k hk => hk, fun k hk => hk, h.funds⟩
    · rintro rfl
      rw [Option.some.inj (hz.symm.trans hx)]
    · simp at hx'
  refine Book.step hl h (h.unfailed i) rfl (.inr (by rw [ht]; rfl)) (.inl rfl) trivial
    (fun j hj hb => absurd hb (h.reserving (by rw [ht]; rfl) hx hst hj)) (fun j _ hj => absurd hj placing_idle)
    (fun z hz => ?_) fun k l hk hl => ?_
  · simp at hz
  · have hentered := h.rows k l hl
    rcases hk with rfl | rfl | rfl
    · rw [hslot] at hdebit
      cases hdebit.symm.trans hl
    · obtain ⟨z, hz, hst', -⟩ := hentered
      obtain rfl := Option.some.inj (hz.symm.trans hx)
      cases hst.symm.trans hst'
    · obtain ⟨z, hz, hst', -⟩ := hentered
      obtain rfl := Option.some.inj (hz.symm.trans hx)
      cases hst.symm.trans hst'

lemma book_create (h : Book σ H) (hm : (H i).Clean) (hfree : σ.bets.findUnique (d.row σ.now).slot = none) :
    Book { σ with bets := σ.bets.create (d.row σ.now) hfree }
      (Function.update H i { H i with task := .reserved σ.bets.next d }) := by
  have hnone : σ.bets.row σ.bets.next = none := Records.row_next
  have hslots := Records.findUnique_eq_none.1 hfree
  have hdebit : σ.ledger.row (.debit d.slot) = none := by
    by_contra hrow
    obtain ⟨l, hl⟩ := Option.ne_none_iff_exists'.1 hrow
    obtain ⟨c, z, hz, hslot, -⟩ := h.rows _ l hl
    exact hslots c z hz hslot
  have hrow : (σ.bets.create (d.row σ.now) hfree).row σ.bets.next = some (d.row σ.now) := by simp
  have hother (j : ℕ) (hb : bet (H j).task = some σ.bets.next) : False := by
    have htask := h.tasks j
    generalize (H j).task = t at hb htask
    cases t with
    | idle => cases hb
    | flipping => exact htask
    | reserved c d | debited c d =>
        obtain rfl := Option.some.inj hb
        obtain ⟨-, z, hz, -⟩ := htask
        cases hnone.symm.trans hz
    | refunding c y | paying c y p =>
        obtain rfl := Option.some.inj hb
        obtain ⟨z, hz, -⟩ := htask
        cases hnone.symm.trans hz
  have hl : Local σ { σ with bets := σ.bets.create (d.row σ.now) hfree } σ.bets.next d.slot := by
    refine ⟨Nat.le_succ _, fun c z hz => ⟨fun heq => absurd heq (hslots c z hz), ?_⟩,
      fun x' hlt => absurd hlt (lt_irrefl _), fun c hc => by simp [hc], fun k _ _ _ => rfl, fun k hk => hk,
      fun k hk => hk, h.funds⟩
    rintro rfl
    cases hnone.symm.trans hz
  refine Book.step hl h (h.unfailed i) rfl (.inl (by rw [h.idle hm]; rfl)) (.inr rfl) ⟨hdebit, _, hrow, rfl, rfl⟩
    (fun j _ hb => (hother j hb).elim) (fun j _ _ hj => (hother j (bet_of_placing hj)).elim) (fun z hz => ?_)
    fun k l hk hl => ?_
  · obtain rfl := Option.some.inj (hrow.symm.trans hz)
    exact ⟨i, by simp [Task.placing]⟩
  · have hentered := h.rows k l hl
    rcases hk with rfl | rfl | rfl
    · cases hdebit.symm.trans hl
    · obtain ⟨z, hz, -⟩ := hentered
      cases hnone.symm.trans hz
    · obtain ⟨z, hz, -⟩ := hentered
      cases hnone.symm.trans hz

end Rows

section Ledger

variable {w : ℕ} {a : ℤ} {ty : LedgerType} {key : Key} {ref : ℕ} {r : Except Err WalletTxResult} {z : Wallet}
  {l : LedgerTransaction}

lemma Holds.settled (ht : Holds σ t) (hx : σ.bets.row b = some x) (hst : x.status ≠ .reserving)
    (hb : bet t = some b) : Holds (σ.post key z l) t := by
  cases t with
  | idle => trivial
  | flipping => exact ht
  | reserved c d | debited c d =>
      obtain rfl := Option.some.inj hb
      obtain ⟨-, x', hx', -, hst'⟩ := ht
      obtain rfl := Option.some.inj (hx.symm.trans hx')
      exact absurd hst' hst
  | refunding c y | paying c y p => exact ht

lemma row_post : (σ.post key z l).ledger.row key = some l := by simp [State.post]

lemma book_post (h : Book σ H) (hx : σ.bets.row b = some x)
    (hnone : σ.ledger.row key = none) (hkey : key = .debit x.slot ∨ key = .refund b ∨ key = .payout b)
    (hbalance : 0 ≤ l.balanceAfter) (hold : bet (H i).task = some b) (hnew : bet t = none ∨ bet t = some b)
    (hsole : t.placing = some b → (H i).task.placing = some b) (hm : Holds (σ.post key z l) t)
    (hothers : ∀ j, j ≠ i → bet (H j).task = some b → Holds (σ.post key z l) (H j).task)
    (hstands : ∀ H' : ℕ → Hand, (H' i).task = t → Stands (σ.post key z l) H' b x)
    (hentered : Entered (σ.post key z l) l key) :
    Book (σ.post key z l) (Function.update H i { H i with task := t }) := by
  have hwallets (k : ℕ) (hk : (σ.wallets.row k).isSome) : ((σ.post key z l).wallets.row k).isSome := by
    by_cases hw : k = l.walletId
    · simp [State.post, hw]
    · simpa [State.post, hw] using hk
  have hl : Local σ (σ.post key z l) b x.slot := by
    refine ⟨le_rfl, fun c x' hx' => ⟨fun heq => σ.bets.unique c b x' x hx' hx heq, ?_⟩, fun x' _ hx' => ⟨x', hx', rfl⟩,
      fun c _ => rfl, fun k hd hr hp => ?_, fun k hk => ?_, hwallets, fun k y hy => ?_⟩
    · rintro rfl
      rw [Option.some.inj (hx'.symm.trans hx)]
    · have hne : k ≠ key := by
        rintro rfl
        rcases hkey with rfl | rfl | rfl
        · exact hd rfl
        · exact hr rfl
        · exact hp rfl
      simp [State.post, hne]
    · by_cases heq : k = key
      · simp [State.post, heq]
      · simpa [State.post, heq] using hk
    · by_cases hw : k = l.walletId
      · obtain rfl : _ = y := by simpa [State.post, hw] using hy
        exact hbalance
      · exact h.funds k y (by simpa [State.post, hw] using hy)
  refine Book.step hl h (h.unfailed i) rfl (.inr hold) hnew hm hothers (fun j hj ht ht' => ?_) (fun x' hx' => ?_)
    fun k l' hk hl' => ?_
  · exact hj (h.sole j i b ht' (hsole ht))
  · obtain rfl := Option.some.inj (hx.symm.trans hx')
    exact hstands _ (by simp)
  · by_cases heq : k = key
    · subst heq
      obtain rfl := Option.some.inj (row_post.symm.trans hl')
      exact hentered
    · have hrow : σ.ledger.row k = some l' := by simpa [State.post, heq] using hl'
      have hbefore := h.rows k l' hrow
      rcases hk with rfl | rfl | rfl
      · obtain ⟨c, x', hx', hslot, hw, hrest⟩ := hbefore
        exact ⟨c, x', hx', hslot, hwallets _ hw, hrest⟩
      · exact hbefore
      · exact hbefore

lemma book_debit {d : NewBet} (h : Book σ H) (ht : (H i).task = .reserved b d) (hpos : 0 < d.amount)
    (hr : σ.recordLedger d.walletId (-d.amount) .betDebit (.debit d.slot) b = (r, σ')) :
    Book σ' (Function.update H i ((H i).posted (.debit d.slot) r)) := by
  have htask := h.tasks i
  rw [ht] at htask
  obtain ⟨hnone, x, hx, rfl, hst⟩ := htask
  rcases recordLedger_cases hr with ⟨-, hrow, -⟩ | ⟨-, ⟨tx, rfl⟩, z, hz, hbalance, rfl⟩ | ⟨rfl, -, ⟨e, rfl⟩, -⟩
  · exact absurd hnone hrow
  · have hposted : (H i).posted (.debit x.terms.slot) (.ok tx) = { H i with task := .debited b x.terms } := by
      simp [Hand.posted, ht]
    have hin : (σ.post (.debit x.slot) z ⟨x.walletId, .betDebit, -x.amount, z.balance + -x.amount, some b⟩).ledger.row
        (.debit x.slot) ≠ none := by
      rw [row_post]
      simp
    rw [hposted]
    refine book_post h hx hnone (.inl rfl) hbalance (by rw [ht]; rfl) (.inr rfl) (fun _ => by rw [ht]; rfl)
      ⟨hin, x, hx, rfl, hst⟩ (fun j hj hb => absurd hb (h.reserving (by rw [ht]; rfl) hx hst hj)) (fun H' hH' => ?_) ?_
    · rw [Stands, hst]
      exact ⟨i, by rw [hH']; rfl⟩
    · have hwallet : ((σ.wallets.insert x.walletId { z with balance := z.balance + -x.amount }).row
          x.walletId).isSome := by simp
      exact ⟨b, x, hx, rfl, hwallet, hpos, rfl, rfl, rfl⟩
  · simpa [Hand.posted] using h

lemma book_credit (h : Book σ H) (hw : (σ.wallets.row w).isSome) (ha : 0 < a)
    (hr : σ.recordLedger w a ty key ref = (r, σ')) :
    (∃ tx, r = .ok tx) ∧ (σ' = σ ∧ σ.ledger.row key ≠ none ∨ σ.ledger.row key = none ∧ ∃ z, σ.wallets.row w = some z ∧
      0 ≤ z.balance + a ∧ σ' = σ.post key z ⟨w, ty, a, z.balance + a, some ref⟩) := by
  rcases recordLedger_cases hr with ⟨hσ, hrow, hok⟩ | ⟨hnone, hok, hrest⟩ | ⟨-, -, -, hneg⟩
  · exact ⟨hok, .inl ⟨hσ, hrow⟩⟩
  · exact ⟨hok, .inr ⟨hnone, hrest⟩⟩
  · obtain ⟨z, hz⟩ := Option.isSome_iff_exists.1 hw
    have hfunds := h.funds w z hz
    have hlow := hneg z hz
    omega

lemma book_settle (h : Book σ H) (hx : σ.bets.row b = some x) (hold : bet (H i).task = some b)
    (hst : x.status = .cancelled ∨ x.status = .cashedOut) (hkey : key = .refund b ∨ key = .payout b)
    (ha : 0 < a) (hdebit : σ.ledger.row (.debit x.slot) ≠ none)
    (hr : σ.recordLedger x.walletId a ty key b = (r, σ'))
    (hlearn : ∀ tx, (H i).posted key (.ok tx) = { H i with task := .idle })
    (hstands : ∀ (σ' : State) (H' : ℕ → Hand), σ'.ledger.row (.debit x.slot) ≠ none → σ'.ledger.row key ≠ none →
      Stands σ' H' b x)
    (hentered : ∀ balance, Entered σ ⟨x.walletId, ty, a, balance, some b⟩ key) :
    Book σ' (Function.update H i ((H i).posted key r)) := by
  have hres : x.status ≠ .reserving := by rcases hst with hst | hst <;> simp [hst]
  obtain ⟨⟨tx, rfl⟩, ⟨rfl, hrow⟩ | ⟨hnone, z, hz, hbalance, rfl⟩⟩ := book_credit h (h.debited hx hdebit).1 ha hr
  · rw [hlearn]
    have hl : Local σ' σ' b x.slot := by
      refine ⟨le_rfl, fun c x' hx' => ⟨fun heq => σ'.bets.unique c b x' x hx' hx heq, ?_⟩,
        fun x' _ hx' => ⟨x', hx', rfl⟩, fun c _ => rfl, fun k _ _ _ => rfl, fun k hk => hk, fun k hk => hk, h.funds⟩
      rintro rfl
      rw [Option.some.inj (hx'.symm.trans hx)]
    refine Book.step hl h (h.unfailed i) rfl (.inr hold) (.inl rfl) trivial (fun j _ _ => h.tasks j)
      (fun j _ hj => absurd hj placing_idle) (fun x' hx' => ?_) fun k l _ hl => h.rows k l hl
    obtain rfl := Option.some.inj (hx.symm.trans hx')
    exact hstands _ _ hdebit hrow
  · rw [hlearn]
    have hne : key ≠ .debit x.slot := by rcases hkey with rfl | rfl <;> simp
    have hkept : (σ.post key z ⟨x.walletId, ty, a, z.balance + a, some b⟩).ledger.row (.debit x.slot) ≠ none := by
      simpa [State.post, hne.symm] using hdebit
    have hin : (σ.post key z ⟨x.walletId, ty, a, z.balance + a, some b⟩).ledger.row key ≠ none := by
      rw [row_post]
      simp
    refine book_post h hx hnone (.inr hkey) hbalance hold (.inl rfl) (fun ht => absurd ht placing_idle) trivial
      (fun j _ hb => Holds.settled (h.tasks j) hx hres hb) (fun H' _ => hstands _ H' hkept hin) ?_
    have hbefore := hentered (z.balance + a)
    rcases hkey with rfl | rfl <;> exact hbefore

lemma book_refund (h : Book σ H) (ht : (H i).task = .refunding b y) (hpos : 0 < y.amount)
    (hr : σ.recordLedger y.walletId y.amount .refund (.refund b) b = (r, σ')) :
    Book σ' (Function.update H i ((H i).posted (.refund b) r)) := by
  have htask := h.tasks i
  rw [ht] at htask
  obtain ⟨x, hx, hterms, hst⟩ := htask
  have hstands := h.bets b x hx
  rw [Stands, hst] at hstands
  have hwallet : y.walletId = x.walletId := (congrArg NewBet.walletId hterms).symm
  have hstake : y.amount = x.amount := (congrArg NewBet.amount hterms).symm
  rw [hwallet] at hr
  refine book_settle h hx (by rw [ht]; rfl) (.inl hst) (.inl rfl) hpos hstands.1 hr (fun tx => by simp [Hand.posted])
    (fun σ' H' hd hrow => ?_) fun balance => ⟨x, hx, hst, rfl, rfl, hstake⟩
  rw [Stands, hst]
  exact ⟨hd, .inl hrow⟩

lemma book_payout {p : ℤ} (h : Book σ H) (ht : (H i).task = .paying b y p) (hpos : 0 < p)
    (hr : σ.recordLedger y.walletId p .payoutCredit (.payout b) b = (r, σ')) :
    Book σ' (Function.update H i ((H i).posted (.payout b) r)) := by
  have htask := h.tasks i
  rw [ht] at htask
  obtain ⟨x, hx, hterms, rfl, hst | ⟨-, hp⟩⟩ := htask
  · have hstands := h.bets b x hx
    rw [Stands, hst] at hstands
    have hwallet : y.walletId = x.walletId := (congrArg NewBet.walletId hterms).symm
    rw [hwallet] at hr
    refine book_settle h hx (by rw [ht]; rfl) (.inr hst) (.inr rfl) hpos hstands.1 hr
      (fun tx => by simp [Hand.posted]) (fun σ' H' hd hrow => ?_) fun balance => ⟨x, hx, hst, hpos, rfl, rfl, rfl⟩
    rw [Stands, hst]
    exact ⟨hd, .inl hrow⟩
  · omega

end Ledger

section Step

variable {o : Oracle} {s : Stmt} {r : game.Reply s}

lemma Book.tables (h : Book σ H) (hbets : σ'.bets = σ.bets) (hledger : σ'.ledger = σ.ledger)
    (hwallets : σ'.wallets = σ.wallets) : Book σ' H := by
  refine h.quiet (by rw [hbets]) hledger hwallets fun c => ?_
  rw [hbets]
  cases σ.bets.row c with
  | none => exact .none
  | some x => exact .some (.refl x)

lemma learn_same (h : Book σ H) (hm : m = H i) : Book σ (Function.update H i m) := by
  subst hm
  simpa using h

lemma book_offBooks (h : Book σ H) (hs : s.offBooks) (hp : perform P i s σ = some (r, σ')) :
    Book σ' (Function.update H i ((H i).learn s r)) := by
  have hwrites : s.writesBets = false ∧ s.writesLedger = false := by simpa [Stmt.offBooks] using hs
  have hquiet : Book σ' H :=
    h.tables ((perform_leaves hp).bets hwrites.1) ((perform_leaves hp).ledger hwrites.2) (perform_wallets hp hwrites.2)
  cases s with
  | findSlot slot =>
      obtain ⟨rfl, rfl⟩ := Prod.mk.inj (Option.some.inj hp)
      refine hquiet.learns fun c y hy => ?_
      obtain ⟨hrow, -⟩ := Records.findUnique_eq_some.1 hy
      refine ⟨σ.bets.fresh c y hrow, fun x hx => ?_⟩
      rw [Option.some.inj (hx.symm.trans hrow)]
  | createBet | updateBet | updateBets | deleteBet | recordLedger => cases hs
  | _ => exact learn_same hquiet rfl

lemma book_stamp {v : BetWhere} {d : BetData} (h : Book σ H) (hst : d.status = none) (hp : d.payout = none) :
    Book (σ.updateBets v d) H := by
  refine h.quiet rfl rfl rfl fun c => ?_
  rw [updateBets_row]
  cases σ.bets.row c with
  | none => exact .none
  | some x =>
      refine .some ?_
      dsimp only
      split
      · exact ⟨rfl, by simp [BetData.apply, hp], .inl (by simp [hst])⟩
      · exact .refl x

lemma book_bust (h : Book σ H) (n : ℕ) :
    Book (σ.updateBets { roundId := some n, status := some [.active] } { status := some .busted, settles := true })
      H := by
  refine h.quiet rfl rfl rfl fun c => ?_
  rw [updateBets_row]
  cases σ.bets.row c with
  | none => exact .none
  | some x =>
      refine .some ?_
      dsimp only
      split
      · rename_i hw
        have hact : x.status = .active := by
          simp only [BetWhere.holds] at hw
          grind
        exact ⟨rfl, rfl, .inr ⟨hact, rfl⟩⟩
      · exact .refl x

lemma book_perform (hP : P.operatorMode = false) (h : Book σ H) (hallow : (H i).Allows P s)
    (hp : perform P i s σ = some (r, σ')) : Book σ' (Function.update H i ((H i).learn s r)) := by
  by_cases hs : s.offBooks
  · exact book_offBooks h hs hp
  by_cases hledger : s.writesLedger
  · cases s with
    | recordLedger w a t k ref =>
        have hr : σ.recordLedger w a t k ref = (r, σ') := Option.some.inj hp
        cases hallow.2 w a t k ref rfl with
        | debit ht ha => exact book_debit h ht ha hr
        | refund ht ha => exact book_refund h ht ha hr
        | payout ht ha => exact book_payout h ht ha hr
    | _ => cases hledger
  · obtain ⟨p, hparts, hw⟩ := hallow.1.writes (by simpa [Stmt.offBooks, hledger] using hs)
    cases hw with
    | create d =>
        simp only [perform, State.createBet, Option.some.injEq] at hp
        split at hp
        · rename_i hfree
          obtain ⟨rfl, rfl⟩ := Prod.mk.inj hp
          refine (book_create h (hallow.1.create d rfl hP) hfree).tables rfl ?_ ?_
          · unfold State.endTx
            split <;> rfl
          · unfold State.endTx
            split <;> rfl
        · obtain ⟨rfl, rfl⟩ := Prod.mk.inj hp
          exact learn_same h rfl
    | activate b tx =>
        obtain ⟨rfl, rfl⟩ := Prod.mk.inj (Option.some.inj hp)
        obtain ⟨hplacing, hnot⟩ := hallow.1.activate b tx rfl
        have htask := h.tasks i
        cases ht : (H i).task with
        | debited b' d =>
            rw [ht] at hplacing
            obtain rfl := Option.some.inj hplacing
            exact book_activate h ht
        | reserved b' d =>
            rw [ht] at hplacing
            obtain rfl := Option.some.inj hplacing
            exact absurd ht (hnot hP d)
        | flipping b' =>
            rw [ht] at htask
            exact htask.elim
        | _ =>
            rw [ht] at hplacing
            cases hplacing
    | stampDebit b tx =>
        have hfailed := hallow.1.stamp b tx rfl
        rw [h.unfailed i] at hfailed
        cases hfailed
    | forget b =>
        obtain ⟨d, ht⟩ := hallow.1.forget b rfl
        have htask := h.tasks i
        rw [ht] at htask
        obtain ⟨-, x, hx, -⟩ := htask
        simp only [perform, hx, Option.isSome_some, if_true] at hp
        obtain ⟨rfl, rfl⟩ := Prod.mk.inj (Option.some.inj hp)
        exact book_forget h ht
    | cancel b =>
        obtain ⟨rfl, rfl⟩ := Prod.mk.inj (Option.some.inj hp)
        obtain ⟨⟨y, hfound⟩, hclean⟩ := hallow.1.cancel b rfl
        exact book_cancel h (hclean hP) hfound
    | cashOut b mult payout =>
        obtain ⟨rfl, rfl⟩ := Prod.mk.inj (Option.some.inj hp)
        obtain ⟨⟨y, hfound⟩, hclean⟩ := hallow.1.cashOut b mult payout rfl
        exact book_cashOut h (hclean hP) hfound
    | pending b =>
        obtain ⟨y, p, ht, hnone⟩ := hallow.1.pending b rfl
        have hzero : p ≤ 0 := (hnone hP).resolve_right (by simp [h.unfailed i])
        have htask := h.tasks i
        rw [ht] at htask
        obtain ⟨x, hx, -⟩ := htask
        simp only [perform, hx, Option.isSome_some, if_true] at hp
        obtain ⟨rfl, rfl⟩ := Prod.mk.inj (Option.some.inj hp)
        exact book_pending h ht hzero
    | paid b tx =>
        simp only [perform] at hp
        split at hp <;> obtain ⟨rfl, rfl⟩ := Prod.mk.inj (Option.some.inj hp)
        · exact learn_same (book_stamp h rfl rfl) rfl
        · exact learn_same h rfl
    | bust n =>
        obtain ⟨rfl, rfl⟩ := Prod.mk.inj (Option.some.inj hp)
        exact learn_same (book_bust h n) rfl
    | _ => simp [Hand.parts] at hparts

end Step

section Balanced

def live (σ : State) (t : LedgerType) (p : ℕ → Bet → Bool) : ℤ :=
  σ.ledger.sum fun _ l =>
    if l.type = t then l.refId.elim 0 fun b => (σ.bets.row b).elim 0 fun x => if p b x then l.amount else 0 else 0

def hasDebit (σ : State) (b : ℕ) : Bool := σ.ledger.count (fun _ l => l.type = .betDebit && l.refId = some b) ≠ 0

/-- The checks on the books, over the bets with such terms: stakes debited and not refunded are held by bets, what was
paid is what the won bets are worth, every win has its row, and no busted bet has one. -/
structure Balanced (p : NewBet → Bool) (σ : State) : Prop where
  stakes : -live σ .betDebit (fun _ x => p x.terms) - live σ .refund (fun _ x => p x.terms) =
    σ.bets.sum fun _ x => if isWageredStatus x.status && p x.terms then x.amount else 0
  paired : live σ .refund (fun b x => p x.terms && hasDebit σ b) = live σ .refund fun _ x => p x.terms
  payouts : live σ .payoutCredit (fun _ x => p x.terms) =
    σ.bets.sum fun _ x => if x.status = .cashedOut && p x.terms then x.payout else 0
  linkage : ∀ b x, σ.bets.row b = some x → x.status = .cashedOut → 0 < x.payout →
    ∃ l, σ.ledger.row (.payout b) = some l ∧ l.type = .payoutCredit
  purity : ∀ b x k l, σ.bets.row b = some x → x.status = .busted → σ.ledger.row k = some l →
    l.type = .payoutCredit → l.refId ≠ some b

variable {p : NewBet → Bool} {q : ℕ → Bet → Bool} {l : LedgerTransaction} {ty : LedgerType}

lemma live_row (hx : σ.bets.row b = some x) (hty : l.type = ty) (href : l.refId = some b) :
    (if l.type = ty then l.refId.elim 0 fun b => (σ.bets.row b).elim 0 fun x => if q b x then l.amount else 0 else 0) =
      if q b x then l.amount else 0 := by
  simp [hx, hty, href]

lemma live_debit (h : Book σ H) : live σ .betDebit (fun _ x => p x.terms) =
    σ.bets.sum fun _ x => if (σ.ledger.row (.debit x.slot)).isSome && p x.terms then -x.amount else 0 := by
  refine Table.sum_eq_sum_of_key (fun _ x => .debit x.slot) (fun j j' s s' hs hs' heq =>
    σ.bets.unique j j' s s' hs hs' (Key.debit.inj heq)) (fun k l hl hne => ?_) fun b x hx => ?_
  · have hentered := h.rows k l hl
    cases k with
    | debit s =>
        obtain ⟨b, x, hx, hslot, -⟩ := hentered
        exact ⟨b, x, hx, congrArg Key.debit hslot⟩
    | refund b =>
        obtain ⟨x, -, -, hty, -⟩ := hentered
        simp [hty] at hne
    | payout b =>
        obtain ⟨x, -, -, -, hty, -⟩ := hentered
        simp [hty] at hne
    | _ =>
        have hty : l.type = .adjustment := hentered
        simp [hty] at hne
  · cases hl : σ.ledger.row (.debit x.slot) with
    | none => simp
    | some l =>
        obtain ⟨-, -, l', hl', hty, href, hamount⟩ := h.debited hx (by simp [hl])
        obtain rfl := Option.some.inj (hl.symm.trans hl')
        rw [Option.elim_some, live_row hx hty href, hamount]
        simp

lemma live_refund (h : Book σ H) : live σ .refund (fun _ x => p x.terms) =
    σ.bets.sum fun b x => if (σ.ledger.row (.refund b)).isSome && p x.terms then x.amount else 0 := by
  refine Table.sum_eq_sum_of_key (fun b _ => .refund b) (fun j j' s s' _ _ heq => Key.refund.inj heq)
    (fun k l hl hne => ?_) fun b x hx => ?_
  · have hentered := h.rows k l hl
    cases k with
    | debit s =>
        obtain ⟨b, x, -, -, -, -, hty, -⟩ := hentered
        simp [hty] at hne
    | refund b =>
        obtain ⟨x, hx, -⟩ := hentered
        exact ⟨b, x, hx, rfl⟩
    | payout b =>
        obtain ⟨x, -, -, -, hty, -⟩ := hentered
        simp [hty] at hne
    | _ =>
        have hty : l.type = .adjustment := hentered
        simp [hty] at hne
  · cases hl : σ.ledger.row (.refund b) with
    | none => simp
    | some l =>
        obtain ⟨x', hx', -, hty, href, hamount⟩ := h.rows _ l hl
        obtain rfl := Option.some.inj (hx.symm.trans hx')
        rw [Option.elim_some, live_row hx hty href, hamount]
        simp

lemma live_payout (h : Book σ H) : live σ .payoutCredit (fun _ x => p x.terms) =
    σ.bets.sum fun b x => if (σ.ledger.row (.payout b)).isSome && p x.terms then x.payout else 0 := by
  refine Table.sum_eq_sum_of_key (fun b _ => .payout b) (fun j j' s s' _ _ heq => Key.payout.inj heq)
    (fun k l hl hne => ?_) fun b x hx => ?_
  · have hentered := h.rows k l hl
    cases k with
    | debit s =>
        obtain ⟨b, x, -, -, -, -, hty, -⟩ := hentered
        simp [hty] at hne
    | refund b =>
        obtain ⟨x, -, -, hty, -⟩ := hentered
        simp [hty] at hne
    | payout b =>
        obtain ⟨x, hx, -⟩ := hentered
        exact ⟨b, x, hx, rfl⟩
    | _ =>
        have hty : l.type = .adjustment := hentered
        simp [hty] at hne
  · cases hl : σ.ledger.row (.payout b) with
    | none => simp
    | some l =>
        obtain ⟨x', hx', -, -, hty, href, hamount⟩ := h.rows _ l hl
        obtain rfl := Option.some.inj (hx.symm.trans hx')
        rw [Option.elim_some, live_row hx hty href, hamount]
        simp

/-- How a bet and its rows go together when no call has anything in hand. -/
structure Settled (σ : State) (b : ℕ) (x : Bet) : Prop where
  debit : (σ.ledger.row (.debit x.slot)).isSome
  refund : (σ.ledger.row (.refund b)).isSome ↔ x.status = .cancelled
  payout : (σ.ledger.row (.payout b)).isSome ↔ x.status = .cashedOut
  wagered : isWageredStatus x.status ↔ x.status ≠ .cancelled

lemma Book.settled (h : Book σ H) (hidle : ∀ i, (H i).task = .idle) (hx : σ.bets.row b = some x) :
    Settled σ b x := by
  have hrefund (hrow : (σ.ledger.row (.refund b)).isSome) : x.status = .cancelled := by
    obtain ⟨l, hl⟩ := Option.isSome_iff_exists.1 hrow
    obtain ⟨x', hx', hst, -⟩ := h.rows _ l hl
    obtain rfl := Option.some.inj (hx.symm.trans hx')
    exact hst
  have hpayout (hrow : (σ.ledger.row (.payout b)).isSome) : x.status = .cashedOut := by
    obtain ⟨l, hl⟩ := Option.isSome_iff_exists.1 hrow
    obtain ⟨x', hx', hst, -⟩ := h.rows _ l hl
    obtain rfl := Option.some.inj (hx.symm.trans hx')
    exact hst
  have hstands := h.bets b x hx
  unfold Stands at hstands
  split at hstands
  · rename_i hst
    obtain ⟨i, hi⟩ := hstands
    rw [hidle i] at hi
    cases hi
  · rename_i hst
    exact ⟨Option.isSome_iff_ne_none.2 hstands, ⟨hrefund, by simp [hst]⟩, ⟨hpayout, by simp [hst]⟩,
      by simp [hst, isWageredStatus]⟩
  · rename_i hst
    exact ⟨Option.isSome_iff_ne_none.2 hstands, ⟨hrefund, by simp [hst]⟩, ⟨hpayout, by simp [hst]⟩,
      by simp [hst, isWageredStatus]⟩
  · rename_i hst
    exact ⟨Option.isSome_iff_ne_none.2 hstands, ⟨hrefund, by simp [hst]⟩, ⟨hpayout, by simp [hst]⟩,
      by simp [hst, isWageredStatus]⟩
  · rename_i hst
    obtain ⟨hdebit, hrow | ⟨i, y, hi⟩⟩ := hstands
    · exact ⟨Option.isSome_iff_ne_none.2 hdebit, ⟨hrefund, fun _ => Option.isSome_iff_ne_none.2 hrow⟩,
        ⟨hpayout, by simp [hst]⟩, by simp [hst, isWageredStatus]⟩
    · rw [hidle i] at hi
      cases hi
  · rename_i hst
    obtain ⟨hdebit, hrow | ⟨i, y, p, hi⟩⟩ := hstands
    · exact ⟨Option.isSome_iff_ne_none.2 hdebit, ⟨hrefund, by simp [hst]⟩,
        ⟨hpayout, fun _ => Option.isSome_iff_ne_none.2 hrow⟩, by simp [hst, isWageredStatus]⟩
    · rw [hidle i] at hi
      cases hi
  · exact hstands.elim

lemma Book.balanced (h : Book σ H) (hidle : ∀ i, (H i).task = .idle) : Balanced p σ where
  stakes := by
    have hzero : (σ.bets.sum fun b x =>
        ((if (σ.ledger.row (.debit x.slot)).isSome && p x.terms then -x.amount else 0) +
          if (σ.ledger.row (.refund b)).isSome && p x.terms then x.amount else 0) +
        if isWageredStatus x.status && p x.terms then x.amount else 0) = 0 := by
      refine Table.sum_eq_zero fun b x hx => ?_
      obtain ⟨hdebit, hrefund, -, hwagered⟩ := h.settled hidle hx
      by_cases hst : x.status = .cancelled
      · have hrow := hrefund.2 hst
        have hout : isWageredStatus x.status = false := by simp [hst, isWageredStatus]
        cases hp : p x.terms <;> simp [hdebit, hrow, hout]
      · have hrow : (σ.ledger.row (.refund b)).isSome = false := by simpa using mt hrefund.1 hst
        have hin := hwagered.2 hst
        cases hp : p x.terms <;> simp [hdebit, hrow, hin]
    rw [Table.sum_add, Table.sum_add, ← live_debit h, ← live_refund h] at hzero
    omega
  paired := by
    refine Table.sum_congr fun k => ?_
    cases hl : σ.ledger.row k with
    | none => rfl
    | some l =>
        simp only [Option.elim_some]
        by_cases hty : l.type = .refund
        · have hentered := h.rows k l hl
          cases k with
          | refund b =>
              obtain ⟨x, hx, -, -, href, -⟩ := hentered
              obtain ⟨l', hl'⟩ := Option.isSome_iff_exists.1 (h.settled hidle hx).debit
              obtain ⟨-, -, l', hl', hty', href', -⟩ := h.debited hx (by simp [hl'])
              have hdeb : hasDebit σ b = true := by
                simp only [hasDebit, ne_eq, decide_not, Bool.not_eq_true', decide_eq_false_iff_not]
                exact Table.count_ne_zero.2 ⟨_, l', hl', by simp [hty', href']⟩
              simp [hx, href, hdeb]
          | debit s =>
              obtain ⟨b, x, -, -, -, -, hty', -⟩ := hentered
              simp [hty'] at hty
          | payout b =>
              obtain ⟨x, -, -, -, hty', -⟩ := hentered
              simp [hty'] at hty
          | _ =>
              have hty' : l.type = .adjustment := hentered
              simp [hty'] at hty
        · simp [hty]
  payouts := by
    rw [live_payout h]
    refine Table.sum_congr fun b => ?_
    cases hx : σ.bets.row b with
    | none => rfl
    | some x =>
        obtain ⟨-, -, hpayout, -⟩ := h.settled hidle hx
        by_cases hst : x.status = .cashedOut
        · simp [hpayout.2 hst, hst]
        · have hrow : (σ.ledger.row (.payout b)).isSome = false := by simpa using mt hpayout.1 hst
          simp [hrow, hst]
  linkage := by
    intro b x hx hst _
    obtain ⟨l, hl⟩ := Option.isSome_iff_exists.1 ((h.settled hidle hx).payout.2 hst)
    obtain ⟨_, -, -, -, hty, -⟩ := h.rows _ l hl
    exact ⟨l, hl, hty⟩
  purity := by
    intro b x k l hx hst hl hty href
    have hentered := h.rows k l hl
    cases k with
    | payout c =>
        obtain ⟨z, hz, hst', -, -, href', -⟩ := hentered
        obtain rfl := Option.some.inj (href'.symm.trans href)
        obtain rfl := Option.some.inj (hx.symm.trans hz)
        cases hst.symm.trans hst'
    | debit s =>
        obtain ⟨c, z, -, -, -, -, hty', -⟩ := hentered
        cases hty'.symm.trans hty
    | refund c =>
        obtain ⟨z, -, -, hty', -⟩ := hentered
        cases hty'.symm.trans hty
    | _ => cases (show l.type = .adjustment from hentered).symm.trans hty

end Balanced

abbrev hands (w : GameWorld) : ℕ → Hand := fun i => foldBy Hand.learn {} i w.log

lemma exec_unfailing {o : Oracle} {w : GameWorld} {s : Stmt} {r : game.Reply s} (ho : unfailing.act i o s w)
    (he : exec P o i s σ = some (r, σ')) : perform P i s σ = some (r, σ') ∨ s.isView ∧ σ' = σ := by
  obtain ⟨hlost, hunacked, hrefused, htimed⟩ := ho
  cases o with
  | ok => exact .inl he
  | lost => exact absurd rfl hlost
  | unacked => exact absurd rfl hunacked
  | refused => exact absurd rfl hrefused
  | timedOut b => exact absurd rfl (htimed b)
  | view v | multiplier m | seed v | demoted =>
      cases s <;> cases he
      exact .inr ⟨rfl, rfl⟩

lemma book_answer {o : Oracle} {w : GameWorld} {s : Stmt} {r : game.Reply s} (hP : P.operatorMode = false)
    (hw : Book w.state (hands w)) (ho : unfailing.act i o s w) (hallow : (hands w i).Allows P s)
    (he : exec P o i s w.state = some (r, σ')) : Book (w.answer i s r σ').state (hands (w.answer i s r σ')) := by
  have hhands : hands (w.answer i s r σ') = Function.update (hands w) i ((hands w i).learn s r) := by
    funext j
    by_cases hj : i = j
    · subst hj
      simp [hands]
    · simp [hands, hj, Ne.symm hj]
  rw [hhands]
  rcases exec_unfailing ho he with hp | ⟨hview, rfl⟩
  · exact book_perform hP hw hallow hp
  · refine learn_same hw ?_
    cases s <;> first | rfl | cases hview

def finished (c : GameConfig) : Bool :=
  c.threads.all fun t => match t with
    | .live (.ret _) | .live (.raise _) => true
    | _ => false

/-- The book balances whenever every call is over. -/
theorem book_balances {σ : State} {c : GameConfig} (hP : P.operatorMode = false) (hb : Book σ fun _ => {})
    (h : unfailing.Reaches (system P) (Config.initial σ) c) (hover : finished c) (p : NewBet → Bool) :
    Balanced p c.world.state := by
  have hgood : c.Good (Contract.disciplined (system P) Hand.learn {} (fun _ => Hand.Allows P)
      (fun _ _ m => P.operatorMode = false → m.Clean) unfailing fun w => Book w.state (hands w)) := by
    refine good_of_discipline (fun n e w a q hr he => environment_minds he hr {} fun _ => .inl rfl)
      (fun i o s w r a hw ho hallow he => book_answer hP hw ho hallow he) (fun n e w a q hw _ he => ?_)
      (fun i w _ hk => hk.elim) hb h
    have hsame := environment_tables he
    exact hw.tables hsame.bets hsame.ledger hsame.wallets
  refine hgood.inv.balanced fun i => hgood.inv.idle ?_
  by_cases hi : i < c.threads.length
  · have hthread := List.all_eq_true.1 hover _ (List.getElem_mem hi)
    cases ht : c.threads[i] with
    | killed => simp [ht] at hthread
    | live q =>
        have hrow : c.threads[i]? = some (.live q) := List.getElem?_eq_some_iff.2 ⟨hi, ht⟩
        cases q with
        | ret a => exact hgood.ended hrow _ rfl hP
        | raise e => exact hgood.raised hrow _ rfl hP
        | call s k => simp [ht] at hthread
  · have hnone : hands c.world i = {} := foldBy_of_absent fun x hx s hs => hi (h.unissued.2 x hx i s hs)
    rw [hnone]
    exact .inl rfl

section Runs

open Scenario

lemma book_idle (phase : Phase) : Book (idle phase) fun _ => {} where
  funds k y hy := by
    obtain ⟨-, rfl⟩ : k = 0 ∧ (⟨1, 0, 1000⟩ : Wallet) = y := by simpa [idle] using hy
    decide
  unfailed _ := rfl
  found i b y hy := by cases hy
  tasks _ := trivial
  sole i j b hi := by cases hi
  bets b x hx := by
    have hnone : (idle phase).bets.row b = none := rfl
    cases hnone.symm.trans hx
  rows k l hl := by
    have hnone : (idle phase).ledger.row k = none := rfl
    cases hnone.symm.trans hl

/-- The player bets, and takes the bet back. -/
theorem bet_taken_back : ∃ c : GameConfig, unfailing.Reaches (system (params false false))
    (Config.initial (idle .betting)) c ∧ Balanced (fun _ => true) c.world.state ∧
      (c.world.state.bets.row 0).map (·.status) = some .cancelled := by
  have hrun : (system (params false false)).run (Config.initial (idle .betting))
      (.env (.call (.placeBet { node := 0, userId := 1, panel := .A, amount := 100 })) :: acts 0 8 ++
        .env (.call (.cancelBet 0 1 .A)) :: acts 1 5) = some _ := rfl
  have hreach := Rule.reaches_of_run (R := unfailing) (by decide) hrun
  exact ⟨_, hreach, book_balances rfl (book_idle .betting) hreach rfl _, rfl⟩

end Runs

end VaultRun.Safety.MoneyBook
