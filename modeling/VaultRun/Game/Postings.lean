import VaultRun.Game.Claims
import VaultRun.Game.Payments

/-!
What is booked for a bet as its win or its refund is what is due: its payout or its stake, to the wallet
that it was placed from.
-/

namespace VaultRun.Game

open VaultRun.Concurrency Program BetsService SeamlessOperatorWallet

/-- So much is booked for the wallet under the key, on the ledger or at the operator of the wallet, and
has not been taken back. -/
def Applied (P : Params) (k : Key) (wallet : ℕ) (amount : ℤ) (σ : State) : Bool :=
  (σ.ledger.row k).any (fun t => t.walletId = wallet && t.amount = amount) ||
    (σ.operator (P.session wallet).operatorId k).any fun tx =>
      tx.applied && tx.walletId = wallet && tx.amount = amount

structure Booked (P : Params) (k : Key) (due : ℕ → ℤ → Prop) (σ : State) : Prop where
  ledger : ∀ t, σ.ledger.row k = some t → due t.walletId t.amount
  operator : ∀ op tx, σ.operator op k = some tx →
    op = (P.session tx.walletId).operatorId ∧ due tx.walletId tx.amount

def Stmt.Books (P : Params) (k : Key) (due : ℕ → ℤ → Prop) : Stmt → Prop
  | recordLedger wl amt _ k' _ => k' = k → due wl amt
  | operatorBet req => req.transactionId ≠ k
  | operatorWin req => req.transactionId = k →
      req.operatorId = (P.session req.walletId).operatorId ∧ due req.walletId req.amount
  | _ => True

variable {P : Params} {k : Key} {b i : ℕ} {s : Stmt} {σ σ' : State} {w w' : GameWorld}

section Exec

variable {due due' : ℕ → ℤ → Prop} {o : Oracle} {r : game.Reply s}

lemma Moved.applied (h : Moved k σ) (hb : Booked P k due σ) :
    ∃ wl amt, due wl amt ∧ Applied P k wl amt σ := by
  rcases h with hl | ⟨op, tx, htx, happ⟩
  · obtain ⟨t, ht⟩ := Option.ne_none_iff_exists'.1 hl
    exact ⟨_, _, hb.ledger t ht, by simp [Applied, ht]⟩
  · obtain ⟨rfl, hdue⟩ := hb.operator op tx htx
    exact ⟨_, _, hdue, by simp [Applied, htx, happ]⟩

lemma moved_of_applied {wl : ℕ} {amt : ℤ} (h : Applied P k wl amt σ) : Moved k σ := by
  rcases Bool.or_eq_true_iff.1 h with h | h
  · obtain ⟨t, ht, -⟩ := (Option.any_eq_true _ _).1 h
    exact .inl (by simp [ht])
  · obtain ⟨tx, htx, happ⟩ := (Option.any_eq_true _ _).1 h
    simp only [Bool.and_eq_true] at happ
    exact .inr ⟨_, tx, htx, happ.1.1⟩

lemma Booked.mono (hb : Booked P k due σ) (h : ∀ wl amt, due wl amt → due' wl amt) :
    Booked P k due' σ :=
  ⟨fun t ht => h _ _ (hb.ledger t ht), fun op tx htx => (hb.operator op tx htx).imp_right (h _ _)⟩

lemma Booked.same (hb : Booked P k due σ) (h : SameTables σ σ') : Booked P k due σ' := by
  refine ⟨fun t ht => ?_, fun op tx htx => ?_⟩
  · rw [h.ledger] at ht
    exact hb.ledger t ht
  · rw [h.operator] at htx
    exact hb.operator op tx htx

lemma Booked.exec (hb : Booked P k due σ) (h : exec P o i s σ = some (r, σ')) (hs : s.Books P k due) :
    Booked P k due σ' := by
  refine ⟨fun t ht => ?_, fun op tx htx => ?_⟩
  · rcases exec_ledger_row h k with hk | ⟨wl, amt, ty, ref, balance, rfl, -, hrow⟩
    · exact hb.ledger t (hk.symm.trans ht)
    · obtain rfl := Option.some.inj (hrow.symm.trans ht)
      exact hs rfl
  · rcases exec_operatorChange h op k with hk | ⟨-, hk, -⟩ | ⟨rfl, hk, hrow⟩ | ⟨hold, -, hrow⟩
    · exact hb.operator op tx (hk.symm.trans htx)
    · exact absurd hk hs
    · obtain rfl := Option.some.inj (hrow.symm.trans htx)
      obtain ⟨hop, hdue⟩ := hs hk
      exact ⟨hop, by simpa using hdue⟩
    · obtain rfl := Option.some.inj (hrow.symm.trans htx)
      obtain ⟨hop, hdue⟩ := hb.operator op _ hold
      exact ⟨hop, hdue⟩

lemma books_of_key (hs : s.key ≠ some k) : s.Books P k due := by
  cases s <;> simp_all [Stmt.Books]

end Exec

structure Lasting (P : Params) (due : ℕ → ℤ → GameWorld → Prop) : Prop where
  answer : ∀ {o : Oracle} {i : ℕ} {s : Stmt} {w : GameWorld} {r : game.Reply s} {σ' : State},
    exec P o i s w.state = some (r, σ') → s.Issued → ∀ wl amt, due wl amt w →
      due wl amt (w.answer i s r σ')
  move : ∀ {C : Contract (system P)} {w w' : GameWorld}, C.Moves w w' → ∀ wl amt, due wl amt w →
    due wl amt w'

structure DueInv (P : Params) (k : Key) (due : ℕ → ℤ → GameWorld → Prop) (w : GameWorld) : Prop where
  grown : ∀ x ∈ w.log, Later x.before w.state
  booked : Booked P k (due · · w) w.state

def dueBookings (P : Params) (k : Key) (due : ℕ → ℤ → GameWorld → Prop) : Contract (system P) where
  rule := .free
  inv := DueInv P k due
  stmts := Stmt.Issued
  pre _ s w := s.Books P k (due · · w)
  ended _ _ _ := True

section Contract

variable {due : ℕ → ℤ → GameWorld → Prop} (hdue : Lasting P due)

lemma keeps_unbooked {α : Type} {p : Program game α} (hp : p.Uses fun s : Stmt => s.key ≠ some k) :
    Keeps (dueBookings P k due) i (fun _ => True) p :=
  keeps_of_uses hp (Contract.stable_const True) fun _ _ hs _ _ => ⟨books_of_key hs, fun _ _ _ _ => trivial⟩

lemma keeps_unowned {α : Type} {p : Program game α} {q : Part} (hp : p.Uses q.Issues)
    (hq : ¬ q.owns k) : Keeps (dueBookings P k due) i (fun _ => True) p :=
  keeps_unbooked (hp.mono fun _ hs hk => hq (hs.owns hk))

lemma keeps_plain_due {α : Type} {p : Program game α} (hp : p.Uses fun s : Stmt => s.plain) :
    Keeps (dueBookings P k due) i (fun _ => True) p :=
  keeps_unowned (q := .settleRound) (hp.mono fun _ hs => .inl hs) id

include hdue

lemma dueBookings_step {r : game.Reply s} (hs : s.Issued) (hi : DueInv P k due w)
    (hp : s.Books P k (due · · w)) (ha : (dueBookings P k due).Answers i s w r w') : DueInv P k due w' := by
  obtain ⟨o, σ', -, hexec, rfl⟩ := ha
  have hlater := exec_later hexec hs
  refine ⟨fun x hx => ?_, (hi.booked.exec hexec hp).mono (hdue.answer hexec hs)⟩
  rcases List.mem_cons.1 hx with rfl | hx
  · exact hlater
  · exact (hi.grown x hx).trans hlater

lemma dueBookings_move (hi : DueInv P k due w) (hm : (dueBookings P k due).Moves w w') :
    DueInv P k due w' := by
  have htables := moves_tables hm
  refine ⟨fun x hx => ?_, (hi.booked.same htables).mono (hdue.move hm)⟩
  rcases hm with ⟨n, e, a, p, -, -, rfl⟩ | ⟨j, -, rfl⟩
  · rcases List.mem_cons.1 hx with rfl | hx
    · exact .of_same htables
    · exact (hi.grown x hx).trans (.of_same htables)
  · rcases List.mem_cons.1 hx with rfl | hx
    · exact .of_same htables
    · exact (hi.grown x hx).trans (.of_same htables)

lemma stable_due (wl : ℕ) (amt : ℤ) : (dueBookings P k due).Stable i (due wl amt) := by
  rintro w w' ⟨-, -, hm | ⟨j, s, r, -, hs, -, o, σ', -, hexec, rfl⟩⟩ hw
  · exact hdue.move hm wl amt hw
  · exact hdue.answer hexec hs wl amt hw

lemma keeps_booking {wl : ℕ} {amt : ℤ} (hs : s.ofWallet)
    (hbooks : ∀ w, due wl amt w → s.Books P k (due · · w)) :
    Keeps (dueBookings P k due) i (due wl amt) (Game.await s) := by
  refine fun w _ hw => sat_await fun w₁ h₁ _ => ?_
  have hw₁ := (stable_due hdue wl amt).interferes h₁ hw
  refine ⟨hbooks w₁ hw₁, ?_⟩
  rintro r w₂ ⟨o, σ', -, hexec, rfl⟩ _ w₃ h₃ _
  have hissued : s.Issued := fun hb => by cases s <;> simp_all
  exact (stable_due hdue wl amt).interferes h₃ (hdue.answer hexec hissued wl amt hw₁)

lemma keeps_credit_due (wl : ℕ) (amt : ℤ) (ty : LedgerType) (ref : ℕ) :
    Keeps (dueBookings P k due) i (due wl amt) (P.wallet.credit wl amt ty k ref) := by
  have hJ := stable_due (i := i) (k := k) hdue wl amt
  have hledger : Keeps (dueBookings P k due) i (due wl amt) (LedgerService.credit wl amt ty k ref) := by
    unfold LedgerService.credit
    split
    · exact keeps_raise hJ _
    · exact keeps_booking hdue rfl fun _ h _ => h
  have hwin (n : ℕ) : Keeps (dueBookings P k due) i (due wl amt)
      (moveWin ⟨(P.session wl).operatorId, wl, amt, k, ref⟩ n) := by
    induction n with
    | zero => exact keeps_raise hJ _
    | succ n ih =>
        refine keeps_catching (keeps_booking hdue rfl fun _ h _ => ⟨rfl, h⟩) fun e => ?_
        split
        · exact keeps_raise hJ _
        · exact ih
  have hoperator : Keeps (dueBookings P k due) i (due wl amt)
      (SeamlessOperatorWallet.credit wl amt ty k ref) := by
    intro w _ hw
    refine sat_await_bind fun w₁ h₁ _ => ⟨trivial, ?_⟩
    rintro r w₂ ⟨o, σ', -, hexec, rfl⟩ hi₂
    have hw₂ := hdue.answer hexec (by simp [Stmt.Issued]) wl amt (hJ.interferes h₁ hw)
    match r with
    | .error e => exact fun w₃ h₃ _ => hJ.interferes h₃ hw₂
    | .ok session =>
        obtain ⟨rfl, -⟩ : P.session wl = session ∧ w₁.state = σ' := by
          simpa [perform] using perform_of_ok hexec rfl
        exact hwin _ _ hi₂ hw₂
  unfold Params.wallet
  cases P.operatorMode with
  | false => exact hledger
  | true =>
      refine keeps_bind (keeps_booking hdue rfl fun _ _ => trivial) fun demo => ?_
      split
      · exact hledger
      · exact hoperator

lemma sat_credit_due {k' : Key} (wl : ℕ) (amt : ℤ) (ty : LedgerType) (ref : ℕ)
    (hi : DueInv P k due w) (hw : k' = k → due wl amt w) :
    Sat (dueBookings P k due) i (fun _ _ => True) (P.wallet.credit wl amt ty k' ref) w := by
  by_cases hk : k' = k
  · subst hk
    exact (keeps_credit_due hdue wl amt ty ref w hi (hw rfl)).mono fun _ _ _ _ => trivial
  · refine keeps_unbooked ((credit_uses wl amt ty k' ref).mono fun s hs h => ?_) w hi trivial
    exact hk (hs.2.1 k h).symm

lemma dueBookings_sound (hparts : ∀ i, Parts P fun _ p => Keeps (dueBookings P k due) i (fun _ => True) p) :
    (dueBookings P k due).Sound :=
  sound_of_parts rfl (fun _ => Contract.stable_const True) hparts
    (fun _ _ _ _ _ hs hi hp ha => dueBookings_step hdue hs hi hp ha)
    (fun _ _ hi hm => dueBookings_move hdue hi hm) (fun _ _ _ _ => trivial) (fun _ _ _ _ _ => trivial)
    fun _ _ _ _ _ _ _ _ => trivial

end Contract

section Wins

variable {x : Bet}

def WinDue (b wl : ℕ) (amt : ℤ) (w : GameWorld) : Prop :=
  w.state.Over b ∧ ∀ x, w.state.bets.row b = some x → x.walletId = wl ∧ x.payout = amt

lemma winDue_of_row (hx : w.state.bets.row b = some x) (hst : x.status.stage = 2) :
    WinDue b x.walletId x.payout w := by
  refine ⟨State.over_of_row hx hst, fun y hy => ?_⟩
  obtain rfl := Option.some.inj (hx.symm.trans hy)
  exact ⟨rfl, rfl⟩

lemma lasting_winDue : Lasting P (WinDue b) where
  answer hexec hs wl amt h := by
    have hlater := exec_later hexec hs
    refine ⟨h.1.later hlater, fun y hy => ?_⟩
    obtain ⟨x, hx, hterms, -⟩ := hlater.bet b y h.1.1 hy
    obtain ⟨hwallet, hpayout⟩ := h.2 x hx
    exact ⟨(congrArg NewBet.walletId hterms).trans hwallet,
      (exec_payout hexec hs hx (h.1.2 x hx) hy).trans hpayout⟩
  move hm wl amt h := by
    refine ⟨h.1.later (moves_later hm), fun y hy => ?_⟩
    rw [(moves_tables hm).bets] at hy
    exact h.2 y hy

variable {bet : Bet} {id mult ccy : ℕ}

lemma sat_payWin_due (payout : ℤ) (hi : DueInv P (.payout b) (WinDue b) w)
    (hw : id = b → WinDue b bet.walletId payout w) :
    Sat (dueBookings P (.payout b) (WinDue b)) i (fun _ _ => True) (payWin P id bet mult payout ccy) w := by
  refine sat_bind (sat_attempt ((sat_credit_due lasting_winDue _ _ _ _ hi fun hk =>
    hw (Key.payout.inj hk)).mono ?_))
  rintro (e | credit) w₁ hi₁ -
  · refine keeps_unbooked ?_ w₁ hi₁ trivial
    exact uses_compositional.bind (await_uses (by simp)) fun _ => trivial
  · refine keeps_unbooked ?_ w₁ hi₁ trivial
    exact uses_compositional.bind (await_uses (by simp)) fun _ =>
      uses_compositional.bind (await_uses (by simp)) fun _ => trivial

lemma sat_claimWin_due (hterms : w.state.OnTerms id bet.terms) :
    Sat (dueBookings P (.payout b) (WinDue b)) i (fun _ _ => True) (claimWin P id bet mult ccy) w := by
  refine sat_await_bind fun w₁ h₁ _ => ⟨trivial, ?_⟩
  have hterms₁ := (stable_onTerms (fun _ h => h) id bet.terms).interferes h₁ hterms
  rintro r w₂ ⟨o, σ', -, hexec, rfl⟩ hi₂
  match r with
  | .error e => exact fun _ _ _ => trivial
  | .ok count =>
      dsimp only
      split
      · exact fun _ _ _ => trivial
      · obtain ⟨x, hx, -, hrow⟩ := exec_swap hexec ‹_›
        have hwallet : x.walletId = bet.walletId := congrArg NewBet.walletId (hterms₁.2 x hx)
        refine sat_payWin_due _ hi₂ fun hid => ?_
        subst hid
        have hdue := winDue_of_row (w := w₁.answer i _ (.ok count) σ') hrow rfl
        rwa [show (BetData.apply _ _ x).walletId = bet.walletId from hwallet] at hdue

lemma sat_reconcileOne_due (n : ℕ) (x : ℕ × Bet) (hi : DueInv P (.payout b) (WinDue b) w)
    (hw : x.1 = b → WinDue b x.2.walletId x.2.payout w) :
    Sat (dueBookings P (.payout b) (WinDue b)) i (fun _ _ => True) (reconcileOne P n x) w := by
  refine sat_bind (sat_attempt (sat_bind ((sat_credit_due lasting_winDue _ _ _ _ hi fun hk =>
    hw (Key.payout.inj hk)).mono ?_)))
  rintro (e | credit) w₁ hi₁ -
  · exact fun _ _ _ => trivial
  · refine (keeps_unbooked ?_ w₁ hi₁ trivial).mono fun _ _ _ _ _ _ _ => trivial
    refine uses_compositional.bind (await_uses (by simp)) fun count => ?_
    split
    · trivial
    · exact uses_compositional.bind (await_uses (by simp)) fun _ => trivial

lemma keeps_reconcilePendingPayouts_due (l : ℕ) :
    Keeps (dueBookings P (.payout b) (WinDue b)) i (fun _ => True) (reconcilePendingPayouts P l) := by
  intro w _ _
  refine sat_await_bind fun w₁ h₁ _ => ⟨trivial, fun r w₂ ha hi₂ => ?_⟩
  match r with
  | .error e => exact fun _ _ _ => trivial
  | .ok pending =>
      obtain ⟨hsame, hrows⟩ := answers_findBets ha
      have hstable : (dueBookings P (.payout b) (WinDue b)).Stable i fun w =>
          ∀ x ∈ pending, x.1 = b → WinDue b x.2.walletId x.2.payout w :=
        fun w w' hd hw x hx hid => stable_due lasting_winDue _ _ w w' hd (hw x hx hid)
      have hone (x) (hx : x ∈ pending) (n : ℕ) : Keeps (dueBookings P (.payout b) (WinDue b)) i
          (fun w => ∀ x ∈ pending, x.1 = b → WinDue b x.2.walletId x.2.payout w) (reconcileOne P n x) := by
        intro w hi hw
        have hsat : Sat ((dueBookings P (.payout b) (WinDue b)).withPre
            (dueBookings P (.payout b) (WinDue b)).pre) i (fun _ _ => True) (reconcileOne P n x) w :=
          sat_reconcileOne_due n x hi (hw x hx)
        refine (hsat.strengthen ((reconcileOne_uses n x).mono fun _ hs => hs.issued) (fun _ _ _ h => h) (fun _ _ _ _ _ h => h)
          hstable ?_ hw).mono fun _ _ _ h => h.2
        rintro s w r w' hs ⟨o, σ', -, hexec, rfl⟩ hw y hy hid
        exact lasting_winDue.answer hexec hs _ _ (hw y hy hid)
      refine (keeps_loop hstable _ hone w₂ hi₂ ?_).mono fun _ _ _ _ => trivial
      rintro ⟨id, bet⟩ hmem rfl
      obtain ⟨hrow, hwh⟩ := hrows id bet hmem
      have hst : bet.status = .payoutPending := by simpa [BetWhere.holds] using hwh
      exact winDue_of_row (hsame ▸ hrow) (by rw [hst]; rfl)

lemma winDue_parts :
    Parts P fun _ p => Keeps (dueBookings P (.payout b) (WinDue b)) i (fun _ => True) p where
  plain := keeps_plain_due
  placeBet a _ := keeps_unowned (placeBet_uses a) id
  cancelBet n u p := keeps_unowned (cancelBet_uses n u p) id
  cashOut n u p mm := keeps_cashOut (fun _ h => h) (Contract.stable_const True) keeps_plain_due n u p mm
    fun _ _ _ _ _ _ _ hgate => sat_claimWin_due hgate.terms
  settleRound r := keeps_unowned (settleRound_uses r) id
  voidBet o b := keeps_unowned (voidBet_uses o b) id
  reconcileVoidingBets l := keeps_unowned (reconcileVoidingBets_uses l) id
  reconcilePendingPayouts := keeps_reconcilePendingPayouts_due
  closeAndRefundRound r := keeps_unowned (closeAndRefundRound_uses r) id
  recoverReservingBets t := keeps_unowned (recoverReservingBets_uses t) id
  recoverStrandedActiveBets t := keeps_unowned (recoverStrandedActiveBets_uses t) id
  drainPending l := keeps_unowned (drainPending_uses _ l) id

theorem win_booked {c : GameConfig} (hσ : Booked P (.payout b) (WinDue b · · ⟨σ, []⟩) σ)
    (h : Rule.free.Reaches (system P) (Config.initial σ) c) :
    Booked P (.payout b) (WinDue b · · c.world) c.world.state := by
  have hinitial : DueInv P (.payout b) (WinDue b) ⟨σ, []⟩ := ⟨by simp, hσ⟩
  have hgood : c.Good (dueBookings P (.payout b) (WinDue b)) :=
    (Config.good_initial hinitial).reaches
      (dueBookings_sound lasting_winDue fun _ => winDue_parts) h
  exact hgood.inv.booked

end Wins

section Stakes

def StakeDue (b wl : ℕ) (amt : ℤ) (w : GameWorld) : Prop :=
  ∃ d, w.state.OnTerms b d ∧ (∀ x ∈ w.log, ∀ y, x.before.bets.row b = some y → y.terms = d) ∧
    d.walletId = wl ∧ d.amount = amt

lemma lasting_stakeDue : Lasting P (StakeDue b) where
  answer := by
    rintro o i s w r σ' hexec hs wl amt ⟨d, hterms, hlog, hd⟩
    refine ⟨d, hterms.later (exec_later hexec hs), fun x hx y hy => ?_, hd⟩
    rcases List.mem_cons.1 hx with rfl | hx
    · exact hterms.2 y hy
    · exact hlog x hx y hy
  move := by
    rintro C w w' hm wl amt ⟨d, hterms, hlog, hd⟩
    refine ⟨d, hterms.later (moves_later hm), fun x hx y hy => ?_, hd⟩
    rcases hm with ⟨n, e, a, p, -, -, rfl⟩ | ⟨j, -, rfl⟩
    · rcases List.mem_cons.1 hx with rfl | hx
      · exact hterms.2 y hy
      · exact hlog x hx y hy
    · rcases List.mem_cons.1 hx with rfl | hx
      · exact hterms.2 y hy
      · exact hlog x hx y hy

lemma sat_claimRefund_due {id ccy : ℕ} {bet : Bet} (hterms : w.state.OnTerms id bet.terms) :
    Sat (dueBookings P (.refund b) (StakeDue b)) i (fun _ _ => True) (claimRefund P id bet ccy) w := by
  refine sat_await_bind fun w₁ h₁ hi₁ => ⟨trivial, ?_⟩
  have hterms₁ := (stable_onTerms (fun _ h => h) id bet.terms).interferes h₁ hterms
  rintro r w₂ ⟨o, σ', -, hexec, rfl⟩ hi₂
  match r with
  | .error e => exact fun _ _ _ => trivial
  | .ok count =>
      dsimp only
      split
      · exact fun _ _ _ => trivial
      obtain ⟨x, hx, -, -⟩ := exec_swap hexec ‹_›
      refine sat_bind ((sat_credit_due lasting_stakeDue _ _ _ _ hi₂ fun hk => ?_).mono ?_)
      · obtain rfl := Key.refund.inj hk
        have hlater := exec_later hexec fun _ => ⟨_, .cancel id⟩
        refine ⟨bet.terms, hterms₁.later hlater, fun e he y hy => ?_, rfl, rfl⟩
        rcases List.mem_cons.1 he with rfl | he
        · exact hterms₁.2 y hy
        · obtain ⟨z, hz, hzx, -⟩ := (hi₁.grown e he).bet id x (e.before.bets.fresh id y hy) hx
          obtain rfl := Option.some.inj (hy.symm.trans hz)
          exact hzx.symm.trans (hterms₁.2 x hx)
      · rintro (e | credit) w₃ _ -
        · trivial
        · exact fun _ _ _ => trivial

lemma stakeDue_parts :
    Parts P fun _ p => Keeps (dueBookings P (.refund b) (StakeDue b)) i (fun _ => True) p where
  plain := keeps_plain_due
  placeBet a _ := keeps_unowned (placeBet_uses a) id
  cancelBet n u p := keeps_cancelBet (fun _ h => h) (Contract.stable_const True) keeps_plain_due n u p
    fun _ _ _ _ _ _ _ hterms => sat_claimRefund_due hterms
  cashOut n u p mm := keeps_unbooked ((cashOut_uses n u p mm).mono fun _ hs hk =>
    hs.elim (fun h => h.owns hk) fun h => h.owns hk)
  settleRound r := keeps_unowned (settleRound_uses r) id
  voidBet o b := keeps_unowned (voidBet_uses o b) id
  reconcileVoidingBets l := keeps_unowned (reconcileVoidingBets_uses l) id
  reconcilePendingPayouts l := keeps_unowned (reconcilePendingPayouts_uses l) id
  closeAndRefundRound r := keeps_unowned (closeAndRefundRound_uses r) id
  recoverReservingBets t := keeps_unowned (recoverReservingBets_uses t) id
  recoverStrandedActiveBets t := keeps_unowned (recoverStrandedActiveBets_uses t) id
  drainPending l := keeps_unowned (drainPending_uses _ l) id

theorem refund_booked {c : GameConfig} (hσ : Booked P (.refund b) (StakeDue b · · ⟨σ, []⟩) σ)
    (h : Rule.free.Reaches (system P) (Config.initial σ) c) :
    Booked P (.refund b) (StakeDue b · · c.world) c.world.state := by
  have hinitial : DueInv P (.refund b) (StakeDue b) ⟨σ, []⟩ := ⟨by simp, hσ⟩
  have hgood : c.Good (dueBookings P (.refund b) (StakeDue b)) :=
    (Config.good_initial hinitial).reaches
      (dueBookings_sound lasting_stakeDue fun _ => stakeDue_parts) h
  exact hgood.inv.booked

end Stakes

end VaultRun.Game
