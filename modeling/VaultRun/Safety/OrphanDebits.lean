import VaultRun.Game.Claims
import VaultRun.Game.Payments
import VaultRun.Game.Scenario

/-!
On the internal ledger a debit keeps its bet, or a recovery pass finds it, as long as no debit is applied
and thrown, and none is posted after a recovery pass has looked for it.
-/

namespace VaultRun.Safety.OrphanDebits

open VaultRun.Concurrency VaultRun.Game Program BetsService GameEngineService

def holdsStake (s : BetStatus) : Bool := s ∈ [BetStatus.active, .cashedOut, .busted, .payoutPending]

def IsDebit (b : ℕ) (l : LedgerTransaction) : Prop := l.type = .betDebit ∧ l.refId = some b

def IsRefund (b : ℕ) (l : LedgerTransaction) : Prop := l.type = .refund ∧ l.refId = some b

/-- Bet `b` holds the stake of its debit `l`, or a recovery pass still selects it, or there is exactly
one refund of it, of the same amount. -/
def Matched (b : ℕ) (l : LedgerTransaction) (σ : State) : Prop :=
  (∃ x, σ.bets.row b = some x ∧ holdsStake x.status) ∨ Recoverable b σ ∨
    ∃ k l', σ.ledger.row k = some l' ∧ IsRefund b l' ∧ l'.amount = -l.amount ∧
      ∀ k' l'', σ.ledger.row k' = some l'' → IsRefund b l'' → k' = k

/-- A recovery pass looks for the debit of bet `b`, once the bet has been claimed for recovery, and
finds none. -/
def misses (b : ℕ) : GameEntry → Bool
  | .answered _ (.findLedger (.debit slot)) (.ok none) before _ =>
      (before.bets.row b).any fun x => x.slot = slot && x.status ∈ [BetStatus.cancelling, .cancelled]
  | _ => false

def Missed (b : ℕ) (log : List GameEntry) : Prop := log.any (misses b)

def debitStands (o : Oracle) (w : GameWorld) : Stmt → Bool
  | .recordLedger _ _ .betDebit k ref =>
      o ≠ .unacked && ((w.state.ledger.row k).isSome || !w.log.any (misses ref))
  | _ => true

def ofPlaceAndRecover : Event → Bool
  | .tick _ | .call (.placeBet _) | .call (.recoverReservingBets _) => true
  | _ => false

@[reducible] def playRule : GameRule where
  act _ _ _ _ := True
  kill _ _ := True
  env _ e _ := ofPlaceAndRecover e

/-- No debit is applied and thrown, and none is posted for a bet that a recovery pass has missed. -/
@[reducible] def debitRule : GameRule where
  act _ o s w := debitStands o w s
  kill _ _ := True
  env _ e _ := ofPlaceAndRecover e

def finished (c : GameConfig) : Bool :=
  c.threads.all fun t => match t with
    | .live (.ret _) => true
    | _ => false

def NoDebit (b : ℕ) (σ : State) : Prop := ∀ k l, σ.ledger.row k = some l → ¬ IsDebit b l

def Covered (b : ℕ) (σ : State) : Prop :=
  ∀ x, σ.bets.row b = some x → holdsStake x.status ∨ isTransientStatus x.status ∨
    σ.ledger.row (.restartRefund b) ≠ none

structure Balanced (σ : State) : Prop where
  debits : ∀ k l b, σ.ledger.row k = some l → IsDebit b l →
    Covered b σ ∧ ∃ x, σ.bets.row b = some x ∧ k = .debit x.slot ∧ l.amount = -x.amount
  refunds : ∀ k l b, σ.ledger.row k = some l → IsRefund b l → k = .restartRefund b
  amounts : ∀ l b, σ.ledger.row (.restartRefund b) = some l →
    IsRefund b l ∧ b < σ.bets.next ∧ ∀ x, σ.bets.row b = some x → l.amount = x.amount

structure DebitInv (w : GameWorld) : Prop where
  balanced : Balanced w.state
  missed : ∀ b, Missed b w.log → NoDebit b w.state ∧ b < w.state.bets.next
  owned : Owned w

inductive Posting (i : ℕ) (w : GameWorld) : ℤ → LedgerType → Key → ℕ → Prop
  | debit {d : NewBet} {b : ℕ} (made : Made i b w.log) (terms : w.state.OnTerms b d)
      (row : w.state.bets.row b ≠ none ∨ Missed b w.log) (covered : Covered b w.state) :
      Posting i w (-d.amount) .betDebit (.debit d.slot) b
  | refund {d : NewBet} {b : ℕ} (terms : w.state.OnTerms b d) :
      Posting i w d.amount .refund (.restartRefund b) b

def DebitPre (i : ℕ) (w : GameWorld) : Stmt → Prop
  | .recordLedger _ a t k ref => Posting i w a t k ref
  | .updateBet b _ => w.state.ledger.row (.restartRefund b) ≠ none
  | .deleteBet b => (Made i b w.log ∧ NoDebit b w.state) ∨ Missed b w.log ∨ w.state.bets.row b = none
  | _ => True

def Played (s : Stmt) : Prop := Part.placeBet.Issues s ∨ Part.recover.Issues s

def orphanDebits (P : Params) : Contract (system P) where
  rule := debitRule
  inv := DebitInv
  stmts := Played
  pre i s w := DebitPre i w s
  ended _ _ _ := True

variable {P : Params} {i j b : ℕ} {w w' : GameWorld} {s : Stmt} {r : game.Reply s} {o : Oracle}
  {σ σ' : State} {log : List GameEntry} {x : GameEntry}

lemma Played.issued (hs : Played s) : s.Issued := hs.elim Part.Issues.issued Part.Issues.issued

lemma missed_cons : Missed b (x :: log) ↔ misses b x = true ∨ Missed b log := by simp [Missed]

lemma Missed.cons (h : Missed b log) : Missed b (x :: log) := missed_cons.2 (.inr h)

section Step

variable (hexec : exec P o i s w.state = some (r, σ')) (hs : Played s)

include hexec in
lemma row_exec (hb : w.state.bets.row b ≠ none) : σ'.bets.row b ≠ none ∨ s = .deleteBet b := by
  rcases exec_betChange hexec b with hk | ⟨-, -, hrow⟩ | ⟨-, -, hrow⟩ | ⟨-, hrow⟩ | -
  · exact .inl (hk ▸ hb)
  · exact .inl (by simp [hrow])
  · exact .inl (by simp [hrow])
  · exact .inl (by simp [hrow])
  · exact .inr rfl

include hexec hs in
lemma covered_exec (hc : Covered b w.state) (hb : b < w.state.bets.next) (hp : DebitPre i w s) :
    Covered b σ' := by
  intro y hy
  have hkept (hl : w.state.ledger.row (.restartRefund b) ≠ none) : holdsStake y.status ∨
      isTransientStatus y.status ∨ σ'.ledger.row (.restartRefund b) ≠ none :=
    .inr (.inr (ledger_row_ne_none hexec hl))
  rcases exec_betChange hexec b with hk | ⟨rfl, -, -⟩ | ⟨hold, hw, hrow⟩ | ⟨hold, hrow⟩ | hdel
  · rcases hc y (hk ▸ hy) with h | h | h
    · exact .inl h
    · exact .inr (.inl h)
    · exact hkept h
  · exact absurd hb (lt_irrefl _)
  · obtain rfl := Option.some.inj (hrow.symm.trans hy)
    rcases hs with hs | hs
    · cases hs.writes rfl with
      | activate => exact .inl rfl
      | stampDebit id tx =>
          rcases hc _ hold with h | h | h
          · exact .inl h
          · exact .inr (.inl h)
          · exact hkept h
    · cases hs.writes rfl with
      | claimSlot => exact .inr (.inl rfl)
  · exact hkept hp
  · rw [hdel] at hy
    cases hy

lemma posted {w : GameWorld} {k : Key} {l : LedgerTransaction} (hexec : exec P o i s w.state = some (r, σ'))
    (hp : DebitPre i w s) (hl : σ'.ledger.row k = some l) :
    w.state.ledger.row k = some l ∨ ∃ wl a t ref balance, s = .recordLedger wl a t k ref ∧
      w.state.ledger.row k = none ∧ l = ⟨wl, t, a, balance, some ref⟩ ∧ Posting i w a t k ref := by
  rcases exec_ledger_row hexec k with hk | ⟨wl, a, t, ref, balance, rfl, hnone, hrow⟩
  · exact .inl (hk ▸ hl)
  · exact .inr ⟨wl, a, t, ref, balance, rfl, hnone, Option.some.inj (hl.symm.trans hrow), hp⟩

include hexec in
/-- Debits of a bet are posted by the call that has made it. -/
lemma noDebit_exec (hn : NoDebit b w.state) (hp : DebitPre i w s)
    (hb : ∀ wl a k, s = .recordLedger wl a .betDebit k b →
      w.state.ledger.row k ≠ none ∨ ¬ Made i b w.log) : NoDebit b σ' := by
  intro k l hl hd
  rcases posted hexec hp hl with hold | ⟨wl, a, t, ref, balance, rfl, hnone, rfl, hpost⟩
  · exact hn k l hold hd
  · obtain ⟨rfl, href⟩ : t = .betDebit ∧ some ref = some b := hd
    obtain rfl := Option.some.inj href
    cases hpost with
    | debit made => exact (hb _ _ _ rfl).elim (absurd hnone) (absurd made)

include hexec hs in
lemma Balanced.exec (hi : DebitInv w) (hp : DebitPre i w s) (hrule : debitStands o w s) :
    Balanced σ' := by
  refine ⟨fun k l b hl hd => ?_, fun k l b hl hr => ?_, fun l b hl => ?_⟩
  · rcases posted hexec hp hl with hold | ⟨wl, a, t, ref, balance, rfl, hnone, rfl, hpost⟩
    · obtain ⟨hc, x, hx, hk, hamt⟩ := hi.balanced.debits k l b hold hd
      have hb := w.state.bets.fresh b x hx
      refine ⟨covered_exec hexec hs hc hb hp, ?_⟩
      rcases row_exec hexec (b := b) (by simp [hx]) with hrow | rfl
      · obtain ⟨y, hy⟩ := Option.ne_none_iff_exists'.1 hrow
        obtain ⟨x', hx', hterms, -⟩ := exec_later_bet hexec hs.issued hb hy
        obtain rfl := Option.some.inj (hx.symm.trans hx')
        have hslot : y.slot = x.slot := congrArg NewBet.slot hterms
        have hstake : y.amount = x.amount := congrArg NewBet.amount hterms
        exact ⟨y, hy, hslot ▸ hk, hstake ▸ hamt⟩
      · rcases hp with ⟨-, hn⟩ | hm | hnone
        · exact absurd hd (hn k l hold)
        · exact absurd hd ((hi.missed b hm).1 k l hold)
        · rw [hx] at hnone
          cases hnone
    · obtain ⟨rfl, href⟩ : t = .betDebit ∧ some ref = some b := hd
      obtain rfl := Option.some.inj href
      have hmissed : ¬ Missed ref w.log := by
        intro hm
        have hany : w.log.any (misses ref) = true := hm
        simp [debitStands, hnone, hany] at hrule
      cases hpost with
      | @debit d _ made terms row covered =>
          obtain ⟨x, hx⟩ := Option.ne_none_iff_exists'.1 (row.resolve_right hmissed)
          refine ⟨covered_exec hexec hs covered terms.1 hp, x, ?_, ?_, ?_⟩
          · rw [exec_bets hexec rfl, hx]
          · rw [← terms.2 x hx]
            rfl
          · rw [← terms.2 x hx]
            rfl
  · rcases posted hexec hp hl with hold | ⟨wl, a, t, ref, balance, rfl, -, rfl, hpost⟩
    · exact hi.balanced.refunds k l b hold hr
    · obtain ⟨rfl, href⟩ : t = .refund ∧ some ref = some b := hr
      obtain rfl := Option.some.inj href
      cases hpost
      rfl
  · rcases posted hexec hp hl with hold | ⟨wl, a, t, ref, balance, rfl, -, rfl, hpost⟩
    · obtain ⟨hr, hb, hamt⟩ := hi.balanced.amounts l b hold
      refine ⟨hr, hb.trans_le (exec_next hexec), fun y hy => ?_⟩
      obtain ⟨x, hx, hterms, -⟩ := exec_later_bet hexec hs.issued hb hy
      have hstake : y.amount = x.amount := congrArg NewBet.amount hterms
      exact (hamt x hx).trans hstake.symm
    · cases hpost with
      | @refund d _ terms =>
          refine ⟨⟨rfl, rfl⟩, terms.1.trans_le (exec_next hexec), fun y hy => ?_⟩
          rw [exec_bets hexec rfl] at hy
          rw [← terms.2 y hy]
          rfl

include hexec in
/-- Where a recovery pass misses the debit of a bet, there is none. -/
lemma noDebit_of_misses (hi : Balanced w.state) (hm : misses b (.answered i s r w.state σ')) :
    NoDebit b w.state ∧ b < w.state.bets.next := by
  unfold misses at hm
  split at hm
  case h_2 => cases hm
  rename_i slot before after heq
  cases heq
  have hnone : w.state.ledger.row (.debit slot) = none := by
    have hp := perform_of_ok hexec rfl
    simp only [perform, Option.some.injEq, Prod.mk.injEq, Except.ok.injEq] at hp
    exact hp.1
  obtain ⟨x, hx, hclaimed⟩ := (Option.any_eq_true _ _).1 hm
  obtain ⟨rfl, -⟩ : x.slot = slot ∧ x.status ∈ [BetStatus.cancelling, .cancelled] := by
    simpa using hclaimed
  refine ⟨fun k l hl hd => ?_, w.state.bets.fresh b x hx⟩
  obtain ⟨-, y, hy, rfl, -⟩ := hi.debits k l b hl hd
  obtain rfl := Option.some.inj (hx.symm.trans hy)
  rw [hnone] at hl
  cases hl

end Step

lemma orphanDebits_step (hs : Played s) (hi : DebitInv w) (hp : DebitPre i w s)
    (ha : (orphanDebits P).Answers i s w r w') : DebitInv w' := by
  obtain ⟨o, σ', hrule, hexec, rfl⟩ := ha
  refine ⟨Balanced.exec hexec hs hi hp hrule, fun b hm => ?_, hi.owned.answer hexec⟩
  obtain ⟨hn, hb⟩ : NoDebit b w.state ∧ b < w.state.bets.next := by
    rcases missed_cons.1 hm with hm | hm
    · exact noDebit_of_misses hexec hi.balanced hm
    · exact hi.missed b hm
  refine ⟨noDebit_exec hexec hn hp ?_, hb.trans_le (exec_next hexec)⟩
  rintro wl a k rfl
  left
  intro hnone
  have hold : w.log.any (misses b) = true := (missed_cons.1 hm).resolve_left (by simp [misses])
  have hstands : debitStands o w (.recordLedger wl a .betDebit k b) := hrule
  simp [debitStands, hnone, hold] at hstands

lemma Balanced.same (h : Balanced σ) (hsame : SameTables σ σ') : Balanced σ' := by
  constructor
  · unfold Covered
    rw [hsame.ledger, hsame.bets]
    exact h.debits
  · rw [hsame.ledger]
    exact h.refunds
  · rw [hsame.ledger, hsame.bets]
    exact h.amounts

lemma orphanDebits_move (hi : DebitInv w) (hm : (orphanDebits P).Moves w w') : DebitInv w' := by
  have htables := moves_tables hm
  have hmissed (b : ℕ) : Missed b w'.log → Missed b w.log := by
    rcases hm with ⟨n, e, a, p, -, -, rfl⟩ | ⟨j, -, rfl⟩
    · exact fun h => (missed_cons.1 h).resolve_left (by simp [misses])
    · exact fun h => (missed_cons.1 h).resolve_left (by simp [misses])
  refine ⟨hi.balanced.same htables, fun b hb => ?_, hi.owned.moves hm⟩
  unfold NoDebit
  rw [htables.ledger, htables.bets]
  exact hi.missed b (hmissed b hb)

section Programs

structure Mine (i b : ℕ) (d : NewBet) (w : GameWorld) : Prop where
  made : Made i b w.log
  terms : w.state.OnTerms b d
  row : w.state.bets.row b ≠ none ∨ Missed b w.log
  covered : Covered b w.state
  undebited : NoDebit b w.state

lemma stable_mine (d : NewBet) : (orphanDebits P).Stable i (Mine i b d) := by
  intro w w' h hw
  have hlater := disturbs_later (fun _ => Played.issued) h
  have hlogs : Made i b w'.log ∧ (Missed b w.log → Missed b w'.log) := by
    rcases h.2.2 with (⟨n, e, a, p, -, -, rfl⟩ | ⟨j, -, rfl⟩) | ⟨j, s, r, -, -, -, o, σ', -, -, rfl⟩ <;>
      exact ⟨hw.made.cons, .cons⟩
  obtain ⟨hi, -, hm | ⟨j, s, r, hj, hs, hp, o, σ', hrule, hexec, rfl⟩⟩ := h
  · have htables := moves_tables hm
    refine ⟨hlogs.1, hw.terms.later hlater, ?_, ?_, ?_⟩
    · rw [htables.bets]
      exact hw.row.imp_right hlogs.2
    · unfold Covered
      rw [htables.ledger, htables.bets]
      exact hw.covered
    · unfold NoDebit
      rw [htables.ledger]
      exact hw.undebited
  · have hother : ¬ Made j b w.log := fun hm => hj (hi.owned.unique j i b hm hw.made)
    refine ⟨hlogs.1, hw.terms.later hlater, ?_, covered_exec hexec hs hw.covered hw.terms.1 hp,
      noDebit_exec hexec hw.undebited hp fun _ _ _ _ => .inr hother⟩
    rcases hw.row with hrow | hm
    · rcases row_exec hexec hrow with hrow' | rfl
      · exact .inl hrow'
      · rcases hp with ⟨hm, -⟩ | hm | hnone
        · exact absurd hm hother
        · exact .inr (hlogs.2 hm)
        · exact absurd hnone hrow
    · exact .inr (hlogs.2 hm)

lemma stable_true : (orphanDebits P).Stable i fun _ => True := Contract.stable_const True

def free : Stmt → Bool
  | .recordLedger _ _ _ _ _ | .updateBet _ _ | .deleteBet _ => false
  | _ => true

lemma pre_of_free (hs : free s) : DebitPre i w s := by
  cases s <;> trivial

lemma keeps_free {α : Type} {p : Program game α} (hp : p.Uses fun s : Stmt => free s) :
    Keeps (orphanDebits P) i (fun _ => True) p :=
  keeps_of_uses hp stable_true fun _ _ hs _ _ => ⟨pre_of_free hs, fun _ _ _ _ => trivial⟩

lemma await_free {s : Stmt} (hs : free s) : (Game.await s).Uses fun s : Stmt => free s :=
  await_uses hs

lemma sat_free_bind {α β : Type} {p : Program game α} {f : α → Program game β}
    {T : Except Err β → GameWorld → Prop} (hp : p.Uses fun s : Stmt => free s) (hi : DebitInv w)
    (herr : ∀ e w, T (.error e) w)
    (hf : ∀ a w, DebitInv w → Sat (orphanDebits P) i T (f a) w) :
    Sat (orphanDebits P) i T (p >>= f) w := by
  refine sat_bind ((keeps_free hp w hi trivial).mono ?_)
  rintro (e | a) w₁ hi₁ -
  · exact herr e w₁
  · exact hf a w₁ hi₁

lemma recordLedger_error {wl ref : ℕ} {amt : ℤ} {ty : LedgerType} {k : Key} {e : Err}
    (h : exec P o i (.recordLedger wl amt ty k ref) σ = some (.error e, σ')) (ho : o ≠ .unacked) :
    σ' = σ := by
  cases o with
  | ok =>
      have herr : σ.recordLedger wl amt ty k ref = (.error e, σ') := Option.some.inj h
      unfold State.recordLedger at herr
      split at herr
      · cases (Prod.mk.inj herr).1
      split at herr
      · exact (Prod.mk.inj herr).2.symm
      dsimp only at herr
      split at herr
      · exact (Prod.mk.inj herr).2.symm
      · cases (Prod.mk.inj herr).1
  | lost => exact (Prod.mk.inj (Option.some.inj h)).2.symm
  | unacked => exact absurd rfl ho
  | _ => cases h

lemma sat_debit (d : NewBet) (hw : Mine i b d w) :
    Sat (orphanDebits P) i (fun r w => ∀ e, r = .error e → Mine i b d w)
      (LedgerService.debit d.walletId d.amount .betDebit (.debit d.slot) b) w := by
  unfold LedgerService.debit
  split
  · exact fun w₁ h₁ _ _ _ => (stable_mine d).interferes h₁ hw
  refine sat_await fun w₁ h₁ _ => ?_
  have hw₁ := (stable_mine d).interferes h₁ hw
  refine ⟨.debit hw₁.made hw₁.terms hw₁.row hw₁.covered, ?_⟩
  rintro r w₂ ⟨o, σ', hrule, hexec, rfl⟩ _ w₃ h₃ _ e rfl
  have hstands : debitStands o w₁ (.recordLedger d.walletId (-d.amount) .betDebit (.debit d.slot) b) :=
    hrule
  obtain rfl := recordLedger_error hexec (by simp [debitStands] at hstands; exact hstands.1)
  refine (stable_mine d).interferes h₃ ⟨hw₁.made.cons, hw₁.terms, ?_, hw₁.covered, hw₁.undebited⟩
  exact hw₁.row.imp_right .cons

lemma activate_free (b : ℕ) (tx : WalletTxResult) (ccy n : ℕ) :
    (activate b tx ccy n).Uses fun s : Stmt => free s := by
  induction n with
  | zero => trivial
  | succ n ih =>
      refine uses_compositional.bind (uses_compositional.attempt (await_free rfl)) fun done => ?_
      split
      · split <;> trivial
      · split
        · exact uses_compositional.bind (uses_compositional.attempt (await_free rfl)) fun _ => trivial
        · exact ih

lemma sat_debitAndActivate (hP : P.operatorMode = false) {d : NewBet} {wl : ℕ × Wallet}
    (hwl : d.walletId = wl.1) (hw : Mine i b d w) :
    Sat (orphanDebits P) i (fun _ _ => True) (debitAndActivate P d.slot wl d.amount b) w := by
  have hwallet : P.wallet = ledgerService := by simp [Params.wallet, hP]
  unfold debitAndActivate
  rw [hwallet, ← hwl]
  refine sat_bind (sat_attempt ((sat_debit d hw).mono ?_))
  rintro (e | tx) w₁ hi₁ hmine
  · have hmine₁ := hmine e rfl
    dsimp only
    refine sat_bind (sat_attempt (sat_await fun w₂ h₂ _ => ?_))
    have hmine₂ := (stable_mine d).interferes h₂ hmine₁
    exact ⟨.inl ⟨hmine₂.made, hmine₂.undebited⟩, fun _ _ _ _ _ _ _ _ _ _ => trivial⟩
  · exact keeps_free (activate_free _ _ _ _) w₁ hi₁ trivial

lemma sat_createBet (d : NewBet) :
    Sat (orphanDebits P) i (fun r w => ∀ b, r = .ok b → Mine i b d w) (Game.await (.createBet d)) w := by
  refine sat_await fun w₁ _ hi₁ => ⟨trivial, ?_⟩
  rintro r w₂ ⟨o, σ', -, hexec, rfl⟩ hi₂ w₃ h₃ _ b rfl
  obtain ⟨hb, hrow, hnext⟩ := exec_createBet hexec
  refine (stable_mine d).interferes h₃ ⟨made_cons.2 (.inl ⟨rfl, rfl⟩), ?_, ?_, ?_, ?_⟩
  · exact State.onTerms_of_row hrow
  · exact .inl (by simp [hrow])
  · intro x hx
    obtain rfl := Option.some.inj (hrow.symm.trans hx)
    exact .inr (.inl rfl)
  · intro k l hl hd
    rw [World.answer_state, exec_ledger hexec rfl] at hl
    obtain ⟨-, x, hx, -⟩ := hi₁.balanced.debits k l b hl hd
    exact absurd (w₁.state.bets.fresh b x hx) (by omega)

lemma sat_reserve (a : PlaceBet) (slot : Slot) (wl : ℕ × Wallet) (amt : ℤ) (hi : DebitInv w) :
    Sat (orphanDebits P) i (fun r w => ∀ b, r = .ok b →
      ∃ d, d.slot = slot ∧ d.walletId = wl.1 ∧ d.amount = amt ∧ Mine i b d w)
      (reserve P a slot wl amt) w := by
  refine sat_free_bind (await_free rfl) hi (by simp) fun _ w₁ hi₁ => sat_catching ?_
  have hcaps (bets : List (ℕ × Bet)) : (sessionCaps a wl.1 amt bets).Uses fun s : Stmt => free s := by
    cases hr : rgOf a <;> simp [sessionCaps, hr, sessionAccounting, Program.await, free]
  refine (?_ : Sat (orphanDebits P) i (fun r w => ∀ b, r = .ok b → ∃ d, d.slot = slot ∧
    d.walletId = wl.1 ∧ d.amount = amt ∧ Mine i b d w) _ w₁).mono ?_
  · refine sat_free_bind (await_free rfl) hi₁ (by simp) fun bets w₂ hi₂ => ?_
    dsimp only
    split
    · exact fun _ _ _ _ h => by cases h
    · refine sat_free_bind (hcaps bets) hi₂ (by simp) fun _ w₃ _ => ?_
      exact (sat_createBet _).mono fun r w₄ _ h b hb => ⟨_, rfl, rfl, rfl, h b hb⟩
  · rintro (e | b) w₂ hi₂ h
    · exact sat_free_bind (await_free rfl) hi₂ (by simp) fun _ _ _ _ _ _ _ h => by cases h
    · exact h

lemma keeps_placeBet (hP : P.operatorMode = false) (a : PlaceBet) :
    Keeps (orphanDebits P) i (fun _ => True) (placeBet P a) := by
  have hrg : (rgGate a).Uses fun s : Stmt => free s := by
    cases hr : rgOf a with
    | none => simp [rgGate, hr]
    | some x => cases hs : x.1.maxSessionSec <;> simp [rgGate, hr, hs, Program.await, free]
  have hwallet : (BetsService.wallet a.userId a.walletId).Uses fun s : Stmt => free s := by
    cases hw : a.walletId <;> simp [BetsService.wallet, Program.await, free]
  refine keeps_bind (keeps_free (await_free rfl)) fun state => ?_
  split
  · exact keeps_ret stable_true _
  dsimp only
  split
  · exact keeps_ret stable_true _
  split
  · exact keeps_ret stable_true _
  refine keeps_bind (keeps_free hrg) fun gate => ?_
  split
  · exact keeps_ret stable_true _
  refine keeps_bind (keeps_free (await_free rfl)) fun existing => ?_
  split
  · exact keeps_ret stable_true _
  refine keeps_bind (keeps_attempt (keeps_free hwallet)) fun found => ?_
  split
  · exact keeps_ret stable_true _
  intro w hi _
  refine sat_bind (sat_attempt ((sat_reserve a _ _ _ hi).mono ?_))
  rintro (e | b) w₁ hi₁ hmine
  · exact fun _ _ _ => trivial
  · obtain ⟨d, hslot, hwl, hamt, hw₁⟩ := hmine b rfl
    have hrest := sat_debitAndActivate hP hwl hw₁
    rw [hslot, hamt] at hrest
    exact hrest

section Recover

def Taken (b : ℕ) (σ : State) : Prop :=
  b < σ.bets.next ∧ ∀ x, σ.bets.row b = some x → x.status ∈ [BetStatus.cancelling, .cancelled]

structure Found (x : ℕ × Bet) (σ : State) : Prop where
  terms : σ.OnTerms x.1 x.2.terms
  taken : x.2.status ≠ .reserving → Taken x.1 σ

def AllFound (xs : List (ℕ × Bet)) (w : GameWorld) : Prop := ∀ x ∈ xs, Found x w.state

lemma Taken.exec (h : Taken b σ) (hs : Played s) (hexec : exec P o i s σ = some (r, σ')) :
    Taken b σ' := by
  refine ⟨h.1.trans_le (exec_next hexec), fun y hy => ?_⟩
  rcases exec_betChange hexec b with hk | ⟨rfl, -, -⟩ | ⟨hold, hw, hrow⟩ | ⟨hold, hrow⟩ | hdel
  · exact h.2 y (hk ▸ hy)
  · exact absurd h.1 (lt_irrefl _)
  · have htaken := h.2 _ hold
    rcases hs with hs | hs
    · cases hs.writes rfl <;> simp_all [BetWhere.holds]
    · cases hs.writes rfl
      simp_all [BetWhere.holds]
  · obtain rfl := Option.some.inj (hrow.symm.trans hy)
    rcases hs with hs | hs
    · cases hs.writes rfl
    · cases hs.writes rfl
      simp
  · rw [hdel] at hy
    cases hy

lemma Found.exec {x : ℕ × Bet} (h : Found x σ) (hs : Played s)
    (hexec : exec P o i s σ = some (r, σ')) : Found x σ' :=
  ⟨h.terms.later (exec_later hexec hs.issued), fun hst => (h.taken hst).exec hs hexec⟩

lemma stable_of_exec (p : State → Prop) (hsame : ∀ σ σ', SameTables σ σ' → p σ → p σ')
    (hexec : ∀ (j : ℕ) (s : Stmt) (r : game.Reply s) o σ σ', Played s →
      exec P o j s σ = some (r, σ') → p σ → p σ') : (orphanDebits P).Stable i fun w => p w.state := by
  rintro w w' ⟨-, -, hm | ⟨j, s, r, -, hs, -, o, σ', -, he, rfl⟩⟩ hw
  · exact hsame _ _ (moves_tables hm) hw
  · exact hexec j s r o _ _ hs he hw

lemma stable_taken : (orphanDebits P).Stable i fun w => Taken b w.state := by
  refine stable_of_exec (Taken b) (fun σ σ' h hw => ?_) fun j s r o σ σ' hs he hw => hw.exec hs he
  unfold Taken
  rwa [h.bets]

lemma stable_found (xs : List (ℕ × Bet)) : (orphanDebits P).Stable i (AllFound xs) := by
  refine stable_of_exec (fun σ => ∀ x ∈ xs, Found x σ) (fun σ σ' h hw x hx => ?_)
    fun j s r o σ σ' hs he hw x hx => (hw x hx).exec hs he
  refine ⟨(hw x hx).terms.later (.of_same h), fun hst => ?_⟩
  unfold Taken
  rw [h.bets]
  exact (hw x hx).taken hst

lemma stable_recorded (k : Key) : (orphanDebits P).Stable i fun w => w.state.ledger.row k ≠ none :=
  stable_of_exec (·.ledger.row k ≠ none) (fun σ σ' h hw => by rwa [h.ledger])
    fun j s r o σ σ' _ he hw => ledger_row_ne_none he hw

def Dropped (b : ℕ) (w : GameWorld) : Prop :=
  (b < w.state.bets.next ∧ w.state.bets.row b = none) ∨ Missed b w.log

lemma stable_dropped : (orphanDebits P).Stable i (Dropped b) := by
  intro w w' h hw
  have hlater := disturbs_later (fun _ => Played.issued) h
  rcases hw with ⟨hb, hnone⟩ | hm
  · refine .inl ⟨hb.trans_le hlater.next, ?_⟩
    by_contra hne
    obtain ⟨y, hy⟩ := Option.ne_none_iff_exists'.1 hne
    obtain ⟨x, hx, -⟩ := hlater.bet b y hb hy
    rw [hnone] at hx
    cases hx
  · exact .inr (Contract.stable_log (Missed b ·) (fun _ _ => .cons) w w' h hm)

lemma dropped_of_lookup {x : ℕ × Bet} (hterms : w.state.OnTerms x.1 x.2.terms)
    (htaken : Taken x.1 w.state)
    (ha : (orphanDebits P).Answers i (.findLedger (.debit x.2.slot)) w (.ok none) w') :
    Dropped x.1 w' := by
  obtain ⟨o, σ', -, hexec, rfl⟩ := ha
  cases hrow : w.state.bets.row x.1 with
  | none =>
      refine .inl ⟨htaken.1.trans_le (exec_next hexec), ?_⟩
      rw [World.answer_state, exec_bets hexec rfl, hrow]
  | some y =>
      have hslot : y.slot = x.2.slot := congrArg NewBet.slot (hterms.2 y hrow)
      have hclaimed := htaken.2 y hrow
      refine .inr (missed_cons.2 (.inl ?_))
      simp only [List.mem_cons, List.not_mem_nil, or_false] at hclaimed
      simp [misses, hrow, hslot, hclaimed]

variable {xs : List (ℕ × Bet)}

lemma AllFound.answer (h : AllFound xs w) (hs : Played s)
    (ha : (orphanDebits P).Answers i s w r w') : AllFound xs w' := by
  obtain ⟨o, σ', -, hexec, rfl⟩ := ha
  exact fun x hx => (h x hx).exec hs hexec

lemma sat_claimSlot {x : ℕ × Bet} (hx : x ∈ xs) (hw : AllFound xs w) :
    Sat (orphanDebits P) i (fun r w => AllFound xs w ∧ ∀ n, r = .ok n → n ≠ 0 → Taken x.1 w.state)
      (claimSlot x) w := by
  unfold claimSlot
  split
  · refine sat_await fun w₁ h₁ _ => ⟨trivial, fun r w₂ ha _ w₃ h₃ _ => ?_⟩
    have hw₂ := ((stable_found xs).interferes h₁ hw).answer (.inr (.inr (.inr (.claimSlot x.1)))) ha
    refine ⟨(stable_found xs).interferes h₃ hw₂, fun n hn hn0 => stable_taken.interferes h₃ ?_⟩
    subst hn
    refine ⟨(hw₂ x hx).terms.1, fun y hy => ?_⟩
    obtain ⟨o, σ', -, hexec, rfl⟩ := ha
    obtain ⟨z, -, -, hrow⟩ := exec_swap hexec hn0
    obtain rfl := Option.some.inj (hrow.symm.trans hy)
    simp
  · intro w₁ h₁ _
    have hw₁ := (stable_found xs).interferes h₁ hw
    exact ⟨hw₁, fun _ _ _ => (hw₁ x hx).taken ‹_›⟩

lemma sat_refund {x : ℕ × Bet} (hx : x ∈ xs) (hw : AllFound xs w) :
    Sat (orphanDebits P) i (fun r w => AllFound xs w ∧ ∀ a, r = .ok a →
      w.state.ledger.row (.restartRefund x.1) ≠ none)
      (LedgerService.credit x.2.walletId x.2.amount .refund (.restartRefund x.1) x.1) w := by
  unfold LedgerService.credit
  split
  · exact fun w₁ h₁ _ => ⟨(stable_found xs).interferes h₁ hw, by simp⟩
  refine sat_await fun w₁ h₁ _ => ?_
  have hw₁ := (stable_found xs).interferes h₁ hw
  refine ⟨.refund (hw₁ x hx).terms, fun r w₂ ha _ w₃ h₃ _ => ⟨(stable_found xs).interferes h₃ ?_, ?_⟩⟩
  · exact hw₁.answer (.inr (.inr (.inl ⟨rfl, by simp [Part.owns], by simp⟩))) ha
  · rintro a rfl
    obtain ⟨o, σ', -, hexec, rfl⟩ := ha
    exact (stable_recorded _).interferes h₃ (recorded hexec)

lemma sat_reverseSlot (hP : P.operatorMode = false) {x : ℕ × Bet} (hx : x ∈ xs) (hw : AllFound xs w)
    (htaken : Taken x.1 w.state) :
    Sat (orphanDebits P) i (fun _ => AllFound xs) (reverseSlot P x) w := by
  have hwallet : P.wallet = ledgerService := by simp [Params.wallet, hP]
  unfold reverseSlot
  rw [hwallet]
  refine sat_await_bind fun w₁ h₁ _ => ⟨trivial, fun r w₂ ha _ => ?_⟩
  have hw₁ := (stable_found xs).interferes h₁ hw
  have hw₂ := hw₁.answer (.inr (.inl rfl)) ha
  cases r with
  | error e => exact fun w₃ h₃ _ => (stable_found xs).interferes h₃ hw₂
  | ok found =>
  cases found with
  | some row =>
      refine sat_bind ((sat_refund hx hw₂).mono ?_)
      rintro (e | a) w₃ _ ⟨hw₃, hrec⟩
      · exact hw₃
      · refine sat_await fun w₄ h₄ _ => ⟨(stable_recorded _).interferes h₄ (hrec a rfl), ?_⟩
        intro r w₅ ha _ w₆ h₆ _
        have hw₄ := (stable_found xs).interferes h₄ hw₃
        exact (stable_found xs).interferes h₆
          (hw₄.answer (.inr (.inr (.inr (.refundedSlot x.1)))) ha)
  | none =>
      have hdropped := dropped_of_lookup (hw₁ x hx).terms (stable_taken.interferes h₁ htaken) ha
      refine sat_bind (sat_attempt (sat_await fun w₃ h₃ _ => ⟨?_, fun r w₄ ha _ w₅ h₅ _ => ?_⟩))
      · rcases stable_dropped.interferes h₃ hdropped with ⟨-, hnone⟩ | hm
        · exact .inr (.inr hnone)
        · exact .inr (.inl hm)
      · have hw₄ := ((stable_found xs).interferes h₃ hw₂).answer
          (.inr (.inr (.inr (.forgetSlot x.1)))) ha
        exact fun w₆ h₆ _ => (stable_found xs).interferes h₆ ((stable_found xs).interferes h₅ hw₄)

lemma keeps_recoverOne (hP : P.operatorMode = false) {x : ℕ × Bet} (hx : x ∈ xs) (n : ℕ) :
    Keeps (orphanDebits P) i (AllFound xs) (recoverOne P n x) := by
  intro w _ hw
  refine sat_bind ((sat_claimSlot hx hw).mono ?_)
  rintro (e | claimed) w₁ hi₁ ⟨hw₁, htaken⟩
  · exact hw₁
  dsimp only
  split
  · exact keeps_ret (stable_found xs) _ w₁ hi₁ hw₁
  · refine sat_bind (sat_attempt ((sat_reverseSlot hP hx hw₁ (htaken claimed rfl ‹_›)).mono ?_))
    rintro (e | u) w₂ hi₂ hw₂
    · exact keeps_ret (stable_found xs) _ w₂ hi₂ hw₂
    · exact keeps_ret (stable_found xs) _ w₂ hi₂ hw₂

lemma allFound_of_answers {cutoff : Option ℕ}
    (ha : (orphanDebits P).Answers i (.findBets
      { status := some [.reserving, .cancelling], createdBefore := cutoff } none) w (.ok xs) w') :
    AllFound xs w' := by
  obtain ⟨hsame, hrows⟩ := answers_findBets ha
  rintro ⟨id, bet⟩ hmem
  obtain ⟨hrow, hwh⟩ := hrows id bet hmem
  rw [hsame]
  refine ⟨State.onTerms_of_row hrow, fun hst => ⟨w.state.bets.fresh id bet hrow, fun y hy => ?_⟩⟩
  obtain rfl := Option.some.inj (hrow.symm.trans hy)
  have hstatus : bet.status = .reserving ∨ bet.status = .cancelling := by
    simp only [BetWhere.holds, Option.all_none, Option.all_some, Bool.and_eq_true] at hwh
    simpa using hwh.1.1.1.1.2
  simp [hstatus.resolve_left hst]

lemma keeps_recoverReservingBets (hP : P.operatorMode = false) (t : ℕ) :
    Keeps (orphanDebits P) i (fun _ => True) (recoverReservingBets P t) := by
  have hcutoff : (cutoffOf t).Uses fun s : Stmt => free s := by
    simp [cutoffOf, Program.await, free]
  refine keeps_bind (keeps_free hcutoff) fun cutoff w _ _ => ?_
  refine sat_await_bind fun w₁ _ _ => ⟨trivial, fun r w₂ ha hi₂ => ?_⟩
  cases r with
  | error e => exact fun _ _ _ => trivial
  | ok xs =>
      have hloop : Keeps (orphanDebits P) i (AllFound xs) (Program.loop (recoverOne P) 0 xs) :=
        keeps_loop (stable_found xs) 0 fun x hx n => keeps_recoverOne hP hx n
      exact (hloop w₂ hi₂ (allFound_of_answers ha)).mono fun _ _ _ _ => trivial

end Recover

end Programs

lemma orphanDebits_sound (hP : P.operatorMode = false) : (orphanDebits P).Sound where
  step _ _ _ _ _ hs hi hp ha := orphanDebits_step hs hi hp ha
  move _ _ := orphanDebits_move
  start n e w a p hi _ hrule he hi' := by
    match e with
    | .call (.placeBet args) =>
        obtain ⟨rfl, rfl⟩ : w.state = a ∧ (Call.placeBet args).prog P = p := by
          simpa [system, environment] using he
        refine ⟨uses_compositional.map ((placeBet_uses args).mono fun _ => .inl), ?_⟩
        exact keeps_map stable_true (keeps_placeBet hP args) _ hi' trivial
    | .call (.recoverReservingBets t) =>
        obtain ⟨rfl, rfl⟩ : w.state = a ∧ (Call.recoverReservingBets t).prog P = p := by
          simpa [system, environment] using he
        refine ⟨uses_compositional.map ((recoverReservingBets_uses t).mono fun _ => .inr), ?_⟩
        exact keeps_map stable_true (keeps_recoverReservingBets hP t) _ hi' trivial
    | .tick ms => simp [system, environment] at he
  kill _ _ _ _ _ _ _ _ := trivial

lemma matched_of_balanced (h : Balanced σ) {k : Key} {l : LedgerTransaction}
    (hl : σ.ledger.row k = some l) (hd : IsDebit b l) : Matched b l σ := by
  obtain ⟨hc, x, hx, -, hamt⟩ := h.debits k l b hl hd
  rcases hc x hx with hheld | htransient | hrefund
  · exact .inl ⟨x, hx, hheld⟩
  · refine .inr (.inl ⟨_, .slots none, x, hx, ?_⟩)
    simpa [BetWhere.holds, isTransientStatus] using htransient
  · obtain ⟨l', hl'⟩ := Option.ne_none_iff_exists'.1 hrefund
    obtain ⟨hr, -, hrefunded⟩ := h.amounts l' b hl'
    refine .inr (.inr ⟨_, l', hl', hr, ?_, fun k' l'' hk' hr' => h.refunds k' l'' b hk' hr'⟩)
    have hrow := hrefunded x hx
    omega

theorem no_orphan_debit (hP : P.operatorMode = false) {c : GameConfig} (hσ : Balanced σ)
    (h : debitRule.Reaches (system P) (Config.initial σ) c) {k : Key} {l : LedgerTransaction}
    (hl : c.world.state.ledger.row k = some l) (hd : IsDebit b l) : Matched b l c.world.state := by
  have hinitial : DebitInv ⟨σ, []⟩ := ⟨hσ, by simp [Missed], owned_initial σ⟩
  have hgood : c.Good (orphanDebits P) :=
    (Config.good_initial hinitial).reaches (orphanDebits_sound hP) h
  exact matched_of_balanced hgood.inv.balanced hl hd

section Runs

open Scenario

def place (amount : ℚ) : Event := .call (.placeBet { node := 0, userId := 1, panel := .A, amount := amount })

lemma balanced_idle (phase : Phase) : Balanced (idle phase) := by
  constructor
  · intro k l b hl
    cases hl
  · intro k l b hl
    cases hl
  · intro l b hl
    cases hl

/-- The call dies after the debit, and a recovery pass refunds the stake. -/
theorem debit_refunded_by_recovery : ∃ (c : GameConfig) (l : LedgerTransaction),
    c.world.state.ledger.row (.debit slot) = some l ∧ statusIn c.world.state 0 = some .cancelled ∧
      Matched 0 l c.world.state := by
  have hrun : (system (params false false)).run (Config.initial (idle .betting))
      [.env (place 100), act 0, act 0, act 0, act 0, act 0, act 0, act 0, .kill 0,
        .env (.call (.recoverReservingBets 0)), act 1, act 1, act 1, act 1, act 1] = some _ := rfl
  have hreach := Rule.reaches_of_run (R := debitRule) (by decide) hrun
  refine ⟨_, _, ?_, ?_, no_orphan_debit rfl (balanced_idle .betting) hreach (k := .debit slot) rfl
    ⟨rfl, rfl⟩⟩
  · rfl
  · decide

/-- A recovery pass claims a slot and finds no debit; the debit goes through, the pass deletes the bet,
and the call reports a failure. -/
theorem orphan_debit_of_late_posting : ∃ c : GameConfig, Balanced (idle .betting) ∧
    playRule.Reaches (system (params false false)) (Config.initial (idle .betting)) c ∧
      finished c ∧ ∃ k l b, c.world.state.ledger.row k = some l ∧ IsDebit b l ∧ ¬ Matched b l c.world.state := by
  have hrun : (system (params false false)).run (Config.initial (idle .betting))
      [.env (place 100), act 0, act 0, act 0, act 0, act 0, act 0,
        .env (.call (.recoverReservingBets 0)), act 1, act 1, act 1, act 0, act 1, act 0] =
          some _ := rfl
  refine ⟨_, balanced_idle .betting, Rule.reaches_of_run (by decide) hrun, rfl, .debit slot, _, 0, rfl,
    ⟨rfl, rfl⟩, ?_⟩
  rintro (⟨x, hx, -⟩ | ⟨wh, -, x, hx, -⟩ | ⟨k, l, hl, hr, -⟩)
  · cases hx
  · cases hx
  · have hnone : (Data.Table.insert (∅ : Data.Table Key LedgerTransaction) (.debit slot)
        ⟨0, .betDebit, -100, 900, some 0⟩).findMany (fun _ l => l.type = .refund) = [] := rfl
    exact Data.Table.findMany_eq_nil.1 hnone k l hl (by simpa using hr.1)

end Runs

end VaultRun.Safety.OrphanDebits
