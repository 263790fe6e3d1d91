import VaultRun.Concurrency.Discipline
import VaultRun.Game.Claims
import VaultRun.Game.Scenario

/-!
Money returns at most once for a bet on the ledger, as long as no claim of the bet comes after a recovery pass
has read it as active: `closeAndRefundRound` and `recoverStrandedActiveBets` pay without a claim of their own.
-/

namespace VaultRun.Safety.MoneyReturns

open VaultRun.Concurrency VaultRun.Game Program

def returnKeys (b : ℕ) : List Key := [.refund b, .restartRefund b, .payout b]

/-- The ledger holds a credit under at most one of the keys that return money for bet `b`. -/
def OneReturn (b : ℕ) (σ : State) : Prop :=
  ∀ k ∈ returnKeys b, ∀ k' ∈ returnKeys b, σ.ledger.row k ≠ none → σ.ledger.row k' ≠ none → k = k'

/-- Nothing has been returned for bet `b`, nor is a win waiting to be paid. -/
def Unreturned (b : ℕ) (σ : State) : Prop :=
  (∀ k ∈ returnKeys b, σ.ledger.row k = none) ∧
    ∀ x, σ.bets.row b = some x → x.status ≠ .payoutPending

/-- The recovery passes ask for the active bets so, and `settleRound` does too. -/
def allActive (wh : BetWhere) : Bool := wh.status = some [.active] && wh.autoCashoutLe.isNone

def findsActive (b : ℕ) : GameEntry → Option ℕ
  | .answered i (.findBets wh _) (.ok bets) _ _ => if allActive wh && bets.any (·.1 = b) then some i else none
  | _ => none

@[reducible] def settlement : Event → Bool
  | .onSettle _ _ | .call (.settleRound _) => true
  | _ => false

def Settles (i : ℕ) (log : List GameEntry) : Bool :=
  log.any fun
    | .moved j e _ _ => i = j && settlement e
    | _ => false

/-- A recovery pass has read bet `b` as active, and is going to refund it. -/
def refunding (b : ℕ) : List GameEntry → Bool
  | [] => false
  | x :: log => (findsActive b x).any (fun i => !Settles i log) || refunding b log

/-- The statement claims bet `b` as cashed out; or as cancelled, for `cancelBet`, which has just read the
wallet of the bet. -/
def claiming (b : ℕ) (t : BetStatus) (last : Option GameEntry) : Stmt → Bool
  | .updateBets wh d =>
      wh.id = some b && d.status = some t && (t = .cashedOut || t = .cancelled && readWallet last)
  | _ => false

def claims (b : ℕ) (t : BetStatus) (log : List GameEntry) : GameEntry → Bool
  | .answered i s _ before after =>
      claiming b t (lastBy i log) s && statusIn before b = some .active && statusIn after b = some t
  | _ => false

def Claimed (b : ℕ) (t : BetStatus) : List GameEntry → Prop
  | [] => False
  | x :: log => claims b t log x ∨ Claimed b t log

/-- `cancelBet` and `cashOut` do not find the bet active any more once a recovery pass has read it so. -/
@[reducible] def returnRule (b : ℕ) : GameRule where
  act i _ s w := refunding b w.log → ∀ t ∈ [BetStatus.cashedOut, .cancelled],
    claiming b t (lastBy i w.log) s → statusIn w.state b ≠ some .active
  kill _ _ := True
  env _ _ _ := True

/-- Bet `b` is left to a recovery pass: nothing has claimed it, nor will. -/
structure Forgone (b : ℕ) (w : GameWorld) : Prop where
  left : refunding b w.log ∨ w.state.Over b
  unclaimed : ∀ t, ¬ Claimed b t w.log

structure ReturnInv (args : ℕ → Event) (b : ℕ) (w : GameWorld) : Prop where
  payout : w.state.ledger.row (.payout b) ≠ none → Claimed b .cashedOut w.log
  refund : w.state.ledger.row (.refund b) ≠ none → Claimed b .cancelled w.log
  restart : w.state.ledger.row (.restartRefund b) ≠ none → Forgone b w
  exclusive : Claimed b .cashedOut w.log → ¬ Claimed b .cancelled w.log
  decided : ∀ t, Claimed b t w.log → w.state.Over b
  pending : statusIn w.state b = some .payoutPending → Claimed b .cashedOut w.log
  read : refunding b w.log → ∀ t, ¬ Claimed b t w.log
  cancelling : statusIn w.state b = some .cancelling → ∀ t, ¬ Claimed b t w.log
  settles : ∀ i, Settles i w.log → settlement (args i)

def ReadActive (b i : ℕ) (log : List GameEntry) : Prop := ∃ x ∈ log, findsActive b x = some i

/-- Wins and refunds are paid for claimed bets only, and a restart refund for a bet that the call has read
as active, or that it has taken from its reservation. -/
def Backed (b i : ℕ) (w : GameWorld) : Stmt → Prop
  | .recordLedger _ _ _ k _ => (k = .payout b → Claimed b .cashedOut w.log) ∧
      (k = .refund b → Claimed b .cancelled w.log) ∧
      (k = .restartRefund b → ReadActive b i w.log ∨ Forgone b w)
  | .updateBet id d => id = b → d.status = some .payoutPending → Claimed b .cashedOut w.log
  | _ => True

def PostsNothing (args : ℕ → Event) (i : ℕ) (_ : Unit) (s : Stmt) : Prop := settlement (args i) → s.key = none

def moneyReturns (P : Params) (args : ℕ → Event) (b : ℕ) : Contract (system P) where
  rule := ((returnRule b).given (system P) args).following (fun m _ _ => m) () (PostsNothing args)
  inv := ReturnInv args b
  stmts := Stmt.Issued
  pre i s w := Backed b i w s
  ended _ _ _ := True

variable {P : Params} {args : ℕ → Event} {i b : ℕ} {w w' : GameWorld} {s : Stmt} {r : game.Reply s}
  {t : BetStatus} {log : List GameEntry} {x : GameEntry}

lemma oneReturn_of_inv (h : ReturnInv args b w) : OneReturn b w.state := by
  intro k hk k' hk' hrow hrow'
  simp only [returnKeys, List.mem_cons, List.not_mem_nil, or_false] at hk hk'
  rcases hk with rfl | rfl | rfl <;> rcases hk' with rfl | rfl | rfl
  · rfl
  · exact absurd (h.refund hrow) ((h.restart hrow').unclaimed _)
  · exact absurd (h.refund hrow) (h.exclusive (h.payout hrow'))
  · exact absurd (h.refund hrow') ((h.restart hrow).unclaimed _)
  · rfl
  · exact absurd (h.payout hrow') ((h.restart hrow).unclaimed _)
  · exact absurd (h.refund hrow') (h.exclusive (h.payout hrow))
  · exact absurd (h.payout hrow) ((h.restart hrow').unclaimed _)
  · rfl

lemma Claimed.cons (h : Claimed b t log) : Claimed b t (x :: log) := .inr h

lemma ReadActive.cons (h : ReadActive b i log) : ReadActive b i (x :: log) := by
  obtain ⟨y, hy, hfinds⟩ := h
  exact ⟨y, List.mem_cons_of_mem _ hy, hfinds⟩

lemma settles_cons (h : Settles i log) : Settles i (x :: log) := by
  simp only [Settles, List.any_cons, Bool.or_eq_true] at h ⊢
  exact .inr h

lemma refunding_of_read (h : ReadActive b i log) (hs : Settles i log = false) : refunding b log := by
  obtain ⟨x, hx, hfinds⟩ := h
  induction log with
  | nil => cases hx
  | cons y log ih =>
      have hlog : Settles i log = false := by
        rw [← Bool.not_eq_true] at hs ⊢
        exact fun h => hs (settles_cons h)
      rcases List.mem_cons.1 hx with rfl | hx
      · simp [refunding, hfinds, hlog]
      · simp [refunding, ih hlog hx]

section Step

variable {o : Oracle} {σ' : State}

lemma claims_cases (h : claims b t log (.answered i s r w.state σ')) :
    claiming b t (lastBy i log) s ∧ statusIn w.state b = some .active ∧ statusIn σ' b = some t ∧
      t ∈ [BetStatus.cashedOut, .cancelled] := by
  obtain ⟨⟨hs, hbefore⟩, hafter⟩ : (claiming b t (lastBy i log) s ∧ statusIn w.state b = some .active) ∧
      statusIn σ' b = some t := by
    simpa [claims] using h
  refine ⟨hs, hbefore, hafter, ?_⟩
  unfold claiming at hs
  split at hs
  · simp_all only [Bool.and_eq_true, Bool.or_eq_true, decide_eq_true_eq, List.mem_cons, List.not_mem_nil,
      or_false]
    exact hs.2.imp_right fun h => h.1
  · cases hs

lemma claims_answer (hr : (returnRule b).act i o s w) (h : claims b t w.log (.answered i s r w.state σ')) :
    statusIn w.state b = some .active ∧ refunding b w.log = false := by
  obtain ⟨hs, hbefore, -, ht⟩ := claims_cases h
  refine ⟨hbefore, ?_⟩
  rw [← Bool.not_eq_true]
  exact fun hread => hr hread t ht hs hbefore

lemma refunding_answer (hexec : exec P o i s w.state = some (r, σ'))
    (h : refunding b (.answered i s r w.state σ' :: w.log)) :
    refunding b w.log ∨ statusIn w.state b = some .active ∧ w.state = σ' := by
  simp only [refunding, Bool.or_eq_true] at h
  refine h.symm.imp_right fun h => ?_
  obtain ⟨j, hfinds, -⟩ := (Option.any_eq_true _ _).1 h
  unfold findsActive at hfinds
  split at hfinds
  · rename_i heq
    obtain ⟨rfl, rfl, rfl, -, -⟩ := Entry.answered.inj heq
    split_ifs at hfinds with hb
    simp only [Bool.and_eq_true, allActive, decide_eq_true_eq, List.any_eq_true] at hb
    obtain ⟨⟨hwh, -⟩, ⟨id, bet⟩, hmem, rfl⟩ := hb
    obtain ⟨rfl, hfound⟩ := exec_findBets hexec
    obtain ⟨hrow, hholds⟩ := hfound id bet hmem
    have hactive : bet.status = .active := by simp_all [BetWhere.holds]
    exact ⟨by simp [statusIn, hrow, hactive], rfl⟩
  · cases hfinds

lemma Forgone.answer (h : Forgone b w) (hr : (returnRule b).act i o s w) (hs : s.Issued)
    (hexec : exec P o i s w.state = some (r, σ')) : Forgone b (w.answer i s r σ') := by
  refine ⟨?_, fun t hc => ?_⟩
  · rcases h.left with hread | hover
    · exact .inl (Bool.or_eq_true_iff.2 (.inr hread))
    · exact .inr (hover.later (exec_later hexec hs))
  · rcases hc with hc | hc
    · obtain ⟨hactive, hunread⟩ := claims_answer hr hc
      rcases h.left with hread | hover
      · rw [hunread] at hread
        cases hread
      · exact not_active_of_over hover hactive
    · exact h.unclaimed t hc

/-- A bet comes to wait for its payout only by the write of `payWin`. -/
lemma pending_cases {σ : State} (h : exec P o i s σ = some (r, σ')) (hs : s.Issued)
    (hp : statusIn σ' b = some .payoutPending) (hb : Backed b i w s) :
    statusIn σ b = some .payoutPending ∨ Claimed b .cashedOut w.log := by
  rcases exec_betChange h b with hk | ⟨rfl, -, hrow⟩ | ⟨hold, hw, hrow⟩ | ⟨hold, hrow⟩ | hdel
  · left
    rwa [statusIn, ← hk]
  · simp [statusIn, hrow] at hp
  · obtain ⟨p, hp'⟩ := hs rfl
    cases hp' <;> simp_all [statusIn, BetWhere.holds]
  · obtain ⟨p, hp'⟩ := hs rfl
    cases hp' <;> simp_all [statusIn, Backed]
  · simp [statusIn, hdel] at hp

lemma cancelling_cases {σ : State} (h : exec P o i s σ = some (r, σ')) (hs : s.Issued)
    (hp : statusIn σ' b = some .cancelling) :
    statusIn σ b = some .cancelling ∨ statusIn σ b = some .reserving := by
  rcases exec_betChange h b with hk | ⟨rfl, -, hrow⟩ | ⟨hold, hw, hrow⟩ | ⟨hold, hrow⟩ | hdel
  · left
    rwa [statusIn, ← hk]
  · simp [statusIn, hrow] at hp
  · obtain ⟨p, hp'⟩ := hs rfl
    cases hp' <;> simp_all [statusIn, BetWhere.holds]
  · obtain ⟨p, hp'⟩ := hs rfl
    cases hp' <;> simp_all [statusIn]
  · simp [statusIn, hdel] at hp

lemma not_reserving_of_over {σ : State} (h : σ.Over b) : statusIn σ b ≠ some .reserving := by
  intro hs
  obtain ⟨y, hy, hst⟩ := Option.map_eq_some_iff.1 hs
  have := h.2 y hy
  simp [hst, BetStatus.stage] at this

lemma moneyReturns_step (hs : s.Issued) (hi : ReturnInv args b w) (hb : Backed b i w s)
    (ha : (moneyReturns P args b).Answers i s w r w') : ReturnInv args b w' := by
  obtain ⟨o, σ', ⟨⟨hr, -⟩, hposts⟩, hexec, rfl⟩ := ha
  have hforgone (h : Forgone b w) : Forgone b (w.answer i s r σ') := h.answer hr hs hexec
  have hnew {t t' : BetStatus} (hx : claims b t w.log (.answered i s r w.state σ')) :
      ¬ Claimed b t' w.log :=
    fun hc => not_active_of_over (hi.decided t' hc) (claims_answer hr hx).1
  refine ⟨fun hp => ?_, fun hp => ?_, fun hp => ?_, fun hp hq => ?_, fun t hc => ?_, fun hp => ?_,
    fun hread t hc => ?_, fun hp t hc => ?_, fun j hj => ?_⟩
  · rcases exec_ledger_row hexec (.payout b) with hk | ⟨wl, a, t, ref, bal, rfl, -, -⟩
    · exact (hi.payout (hk ▸ hp)).cons
    · exact (hb.1 rfl).cons
  · rcases exec_ledger_row hexec (.refund b) with hk | ⟨wl, a, t, ref, bal, rfl, -, -⟩
    · exact (hi.refund (hk ▸ hp)).cons
    · exact (hb.2.1 rfl).cons
  · rcases exec_ledger_row hexec (.restartRefund b) with hk | ⟨wl, a, t, ref, bal, rfl, hnone, -⟩
    · exact hforgone (hi.restart (hk ▸ hp))
    · refine hforgone ((hb.2.2 rfl).elim (fun hread => ?_) id)
      have hnot : Settles i w.log = false := by
        rw [← Bool.not_eq_true]
        intro hsettles
        cases hposts (hi.settles i hsettles)
      have href := refunding_of_read hread hnot
      exact ⟨.inl href, hi.read href⟩
  · rcases hp with hp | hp <;> rcases hq with hq | hq
    · have := (claims_cases hp).2.2.1.symm.trans (claims_cases hq).2.2.1
      simp at this
    · exact hnew hp hq
    · exact hnew hq hp
    · exact hi.exclusive hp hq
  · rcases hc with hx | hc
    · obtain ⟨-, -, hst, ht⟩ := claims_cases hx
      refine over_of_statusIn hst ?_
      simp only [List.mem_cons, List.not_mem_nil, or_false] at ht
      rcases ht with rfl | rfl <;> rfl
    · exact (hi.decided t hc).later (exec_later hexec hs)
  · exact ((pending_cases hexec hs hp hb).elim hi.pending id).cons
  · rcases refunding_answer hexec hread with hread | ⟨hactive, rfl⟩
    · exact (hforgone ⟨.inl hread, hi.read hread⟩).unclaimed t hc
    · rcases hc with hx | hc
      · obtain ⟨-, -, hst, ht⟩ := claims_cases hx
        obtain rfl := Option.some.inj (hactive.symm.trans hst)
        simp at ht
      · exact not_active_of_over (hi.decided t hc) hactive
  · rcases hc with hx | hc
    · obtain ⟨-, -, hst, ht⟩ := claims_cases hx
      obtain rfl := Option.some.inj (hst.symm.trans hp)
      simp at ht
    · rcases cancelling_cases hexec hs hp with hp | hp
      · exact hi.cancelling hp t hc
      · exact not_reserving_of_over (hi.decided t hc) hp
  · refine hi.settles j ?_
    simpa [Settles] using hj

lemma settlement_starts {e : Event} {n : ℕ} {σ : State} {p : Option (Program game Outcome)}
    (h : environment P e n σ = some (σ', p)) (he : settlement e) : ∃ q, p = some q := by
  cases e with
  | call c => exact ⟨_, (Prod.mk.inj (Option.some.inj h)).2.symm⟩
  | onSettle node r =>
      simp only [environment] at h
      split_ifs at h
      exact ⟨_, (Prod.mk.inj (Option.some.inj h)).2.symm⟩
  | _ => cases he

lemma returnInv_aside (hi : ReturnInv args b w) (htables : SameTables w.state w'.state)
    (hread : refunding b w'.log = refunding b w.log) (hclaimed : ∀ t, Claimed b t w'.log ↔ Claimed b t w.log)
    (hsettles : ∀ j, Settles j w'.log → settlement (args j)) : ReturnInv args b w' := by
  have hstatus : statusIn w'.state b = statusIn w.state b := by rw [statusIn, htables.bets, statusIn]
  have hover (h : w.state.Over b) : w'.state.Over b := h.later (.of_same htables)
  refine ⟨?_, ?_, ?_, ?_, ?_, ?_, ?_, ?_, hsettles⟩
  · rw [htables.ledger, hclaimed]
    exact hi.payout
  · rw [htables.ledger, hclaimed]
    exact hi.refund
  · rw [htables.ledger]
    intro hp
    have hforgone := hi.restart hp
    exact ⟨hforgone.left.imp (hread ▸ ·) hover, fun t hc => hforgone.unclaimed t ((hclaimed t).1 hc)⟩
  · rw [hclaimed, hclaimed]
    exact hi.exclusive
  · exact fun t hc => hover (hi.decided t ((hclaimed t).1 hc))
  · rw [hstatus, hclaimed]
    exact hi.pending
  · rw [hread]
    exact fun h t hc => hi.read h t ((hclaimed t).1 hc)
  · rw [hstatus]
    exact fun h t hc => hi.cancelling h t ((hclaimed t).1 hc)

lemma moneyReturns_move (hi : ReturnInv args b w) (hm : (moneyReturns P args b).Moves w w') :
    ReturnInv args b w' := by
  have htables := moves_tables hm
  rcases hm with ⟨n, e, a, p, ⟨-, hargs⟩, he, rfl⟩ | ⟨j, -, rfl⟩
  · refine returnInv_aside hi htables rfl (fun t => by simp [Claimed, claims]) fun j hj => ?_
    simp only [World.move_log, Settles, List.any_cons, Bool.or_eq_true, Bool.and_eq_true,
      decide_eq_true_eq] at hj
    rcases hj with ⟨rfl, hsettle⟩ | hj
    · obtain ⟨q, rfl⟩ := settlement_starts he hsettle
      exact hargs a q he ▸ hsettle
    · exact hi.settles j hj
  · exact returnInv_aside hi htables rfl (fun t => by simp [Claimed, claims]) fun j hj =>
      hi.settles j (by simpa [Settles] using hj)

end Step

section Programs

variable {Q : GameWorld → Prop}

lemma lasting_forgone : (moneyReturns P args b).Lasting (Forgone b) where
  moves hm hw := by
    have hlater := moves_later hm
    rcases hm with ⟨n, e, a, q, -, -, rfl⟩ | ⟨j, -, rfl⟩
    · exact ⟨hw.left.imp_right (·.later hlater), fun t => by simpa [Claimed, claims] using hw.unclaimed t⟩
    · exact ⟨hw.left.imp_right (·.later hlater), fun t => by simpa [Claimed, claims] using hw.unclaimed t⟩
  answers := by
    rintro i s w r w' hs ⟨o, σ', ⟨⟨hr, -⟩, -⟩, hexec, rfl⟩ hw
    exact hw.answer hr hs hexec

lemma lasting_claimed : (moneyReturns P args b).Lasting fun w => Claimed b t w.log :=
  Contract.lasting_log fun _ _ h => h.cons

lemma lasting_read : (moneyReturns P args b).Lasting fun w => ReadActive b i w.log :=
  Contract.lasting_log fun _ _ h => h.cons

lemma stable_true : (moneyReturns P args b).Stable i fun _ => True := Contract.stable_const True

lemma keeps_part {α : Type} {p : Program game α} {q : Part} (hp : p.Uses q.Issues)
    (hq : q ∉ [Part.cancelBet, .payWin, .reconcilePayouts, .refund, .recover, .heal]) :
    Keeps (moneyReturns P args b) i (fun _ => True) p := by
  refine keeps_of_uses hp stable_true fun s w hs _ _ => ⟨?_, fun _ _ _ _ => trivial⟩
  cases s with
  | recordLedger wl a t k ref =>
      have howns := hs.owns rfl
      refine ⟨?_, ?_, ?_⟩ <;> rintro rfl <;> cases q <;> simp_all [Part.owns]
  | updateBet id d =>
      have hwrites := hs.writes rfl
      cases hwrites <;> simp_all [moneyReturns, Backed]
  | _ => trivial

lemma keeps_plain {α : Type} {p : Program game α} (hp : p.Uses fun s : Stmt => s.plain) :
    Keeps (moneyReturns P args b) i (fun _ => True) p := by
  refine keeps_of_uses hp stable_true fun s w hs _ _ => ⟨?_, fun _ _ _ _ => trivial⟩
  cases s <;> trivial

def PaysUnder (k : Key) (s : Stmt) : Prop := (∀ k' ∈ s.key, k' = k) ∧ ∀ id d, s ≠ .updateBet id d

lemma backed_of_paysUnder {k : Key} (hs : PaysUnder k s) (hpay : k = .payout b → Claimed b .cashedOut w.log)
    (href : k = .refund b → Claimed b .cancelled w.log)
    (hrestart : k = .restartRefund b → ReadActive b i w.log ∨ Forgone b w) : Backed b i w s := by
  cases s with
  | recordLedger wl a ty k' ref =>
      obtain rfl : k' = k := hs.1 k' rfl
      exact ⟨hpay, href, hrestart⟩
  | updateBet id d => exact absurd rfl (hs.2 id d)
  | _ => trivial

lemma credit_paysUnder (wl : ℕ) (amt : ℤ) (ty : LedgerType) (k : Key) (ref : ℕ) :
    (P.wallet.credit wl amt ty k ref).Uses fun s : Stmt => s.Issued ∧ PaysUnder k s :=
  (credit_uses wl amt ty k ref).mono fun s hs => by
    refine ⟨fun hw => ?_, hs.2.1, fun id d h => ?_⟩
    · cases s <;> simp_all
    · subst h
      exact absurd hs.1 (by simp [Stmt.ofWallet])

lemma reverse_paysUnder (wl : ℕ) (p : ReverseParams) :
    (P.wallet.reverse wl p).Uses fun s : Stmt => s.Issued ∧ PaysUnder p.reverseKey s := by
  refine wallet_reverse_uses (m := (· = p.reverseKey)) (u := fun _ => True) (fun s hs hk _ => ?_) wl rfl trivial
  refine ⟨fun hw => ?_, hk, fun id d h => ?_⟩
  · cases s <;> simp_all
  · subst h
    exact absurd hs (by simp [Stmt.ofWallet])

/-- A claim that went through is a claim on record: no recovery pass can have read the bet before it. -/
lemma claimed_of_swap {id n : ℕ} {d : BetData} (hd : d.status = some t)
    (ht : t = .cashedOut ∨ t = .cancelled ∧ readWallet (lastBy i w.log))
    (ha : (moneyReturns P args b).Answers i (.updateBets { id := some id, status := some [.active] } d) w
      (.ok n) w') (hn : n ≠ 0) : id = b → Claimed b t w'.log := by
  rintro rfl
  obtain ⟨o, σ', -, hexec, rfl⟩ := ha
  obtain ⟨y, hy, hactive, hrow⟩ := exec_swap hexec hn
  have hbefore : statusIn w.state id = some .active := by simp [statusIn, hy, hactive]
  have hafter : statusIn σ' id = some t := by simp [statusIn, hrow, hd]
  refine .inl ?_
  rcases ht with rfl | ⟨rfl, hread⟩ <;> simp_all [claims, claiming]

lemma sat_claimRefund (id : ℕ) (bet : Bet) (ccy : ℕ) (hread : readWallet (lastBy i w.log)) :
    Sat (moneyReturns P args b) i (fun _ _ => True) (BetsService.claimRefund P id bet ccy) w := by
  refine sat_await_bind fun w₁ h₁ _ => ⟨trivial, fun r w₂ hclaim hi₂ => ?_⟩
  have hlast := (Contract.stable_lastBy (readWallet · = true)).interferes h₁ hread
  match r with
  | .error e => exact fun _ _ _ => trivial
  | .ok count =>
      dsimp only
      split
      · exact fun _ _ _ => trivial
      have hT := claimed_of_swap rfl (.inr ⟨rfl, hlast⟩) hclaim ‹_›
      have hcredit : Keeps (moneyReturns P args b) i (fun w => id = b → Claimed b .cancelled w.log)
          (P.wallet.credit bet.walletId bet.amount .refund (.refund id) id) :=
        keeps_of_lasting lasting_claimed.imp (credit_paysUnder _ _ _ _ _) fun s w hs _ h =>
          backed_of_paysUnder hs (by simp) (fun hk => h (Key.refund.inj hk)) (by simp)
      exact (keeps_bind hcredit fun _ => keeps_ret lasting_claimed.imp.stable _) w₂ hi₂ hT |>.mono
        fun _ _ _ _ => trivial

lemma keeps_payWin (id : ℕ) (bet : Bet) (mult : ℕ) (payout : ℤ) (ccy : ℕ) :
    Keeps (moneyReturns P args b) i (fun w => id = b → Claimed b .cashedOut w.log)
      (BetsService.payWin P id bet mult payout ccy) := by
  have hcredit : Keeps (moneyReturns P args b) i (fun w => id = b → Claimed b .cashedOut w.log)
      (P.wallet.credit bet.walletId payout .payoutCredit (.payout id) id) :=
    keeps_of_lasting lasting_claimed.imp (credit_paysUnder _ _ _ _ _) fun s w hs _ h =>
      backed_of_paysUnder hs (fun hk => h (Key.payout.inj hk)) (by simp) (by simp)
  refine keeps_bind (keeps_attempt hcredit) fun paid => ?_
  refine keeps_of_lasting (φ := fun s => s.plain ∨ ∃ d, s = .updateBet id d) lasting_claimed.imp ?_ fun s w hs _ h => ?_
  · have hpending : Stmt.Issued (.markPending id) := fun _ => ⟨_, .pending id⟩
    have hpaid (tx : Key) : Stmt.Issued (.updateBet id { payoutTxId := some tx }) := fun _ => ⟨_, .paid id tx⟩
    cases paid <;> simp [Program.await, moneyReturns, hpending, hpaid, Stmt.issued_of_plain]
  · rcases hs with hs | ⟨d, rfl⟩
    · cases s <;> trivial
    · exact fun hid _ => h hid

lemma sat_claimWin (id : ℕ) (bet : Bet) (mult ccy : ℕ) :
    Sat (moneyReturns P args b) i (fun _ _ => True) (BetsService.claimWin P id bet mult ccy) w := by
  refine sat_await_bind fun w₁ _ _ => ⟨trivial, fun r w₂ hclaim hi₂ => ?_⟩
  match r with
  | .error e => exact fun _ _ _ => trivial
  | .ok count =>
      dsimp only
      split
      · exact fun _ _ _ => trivial
      have hT := claimed_of_swap rfl (.inl rfl) hclaim ‹_›
      exact (keeps_payWin id bet mult _ ccy w₂ hi₂ hT).mono fun _ _ _ _ => trivial

lemma keeps_pass {wh : BetWhere} {take : Option ℕ} {β : Type} {f : β → ℕ × Bet → Program game β} {acc : β}
    (hQ : (moneyReturns P args b).Lasting Q) (hfound : ∀ w w' bets, ReturnInv args b w →
      (moneyReturns P args b).Answers i (.findBets wh take) w (.ok bets) w' → b ∈ bets.map Prod.fst → Q w')
    (hone : ∀ x acc (q : Prop), (x.1 = b → q) → Keeps (moneyReturns P args b) i (fun w => q → Q w) (f acc x)) :
    Keeps (moneyReturns P args b) i (fun _ => True) (do
      let bets ← await (.findBets wh take)
      loop f acc bets) := by
  intro w _ _
  refine sat_await_bind fun w₁ _ hi₁ => ⟨trivial, fun r w₂ hfind hi₂ => ?_⟩
  match r with
  | .error e => exact fun _ _ _ => trivial
  | .ok bets =>
      refine (keeps_loop (J := fun w => b ∈ bets.map Prod.fst → Q w) hQ.imp.stable acc (fun x hx acc => ?_)
        w₂ hi₂ (hfound w₁ w₂ bets hi₁ hfind)).mono fun _ _ _ _ => trivial
      exact hone x acc _ fun h => h ▸ List.mem_map_of_mem hx

lemma keeps_reconcileOne (n : ℕ) (x : ℕ × Bet) {q : Prop} (hq : x.1 = b → q) :
    Keeps (moneyReturns P args b) i (fun w => q → Claimed b .cashedOut w.log)
      (BetsService.reconcileOne P n x) := by
  have hcredit : Keeps (moneyReturns P args b) i (fun w => q → Claimed b .cashedOut w.log)
      (P.wallet.credit x.2.walletId x.2.payout .payoutCredit (.payout x.1) x.1) :=
    keeps_of_lasting lasting_claimed.imp (credit_paysUnder _ _ _ _ _) fun s w hs _ h =>
      backed_of_paysUnder hs (fun hk => h (hq (Key.payout.inj hk))) (by simp) (by simp)
  refine keeps_bind (keeps_attempt (keeps_bind hcredit fun credit => ?_)) fun done =>
    keeps_ret lasting_claimed.imp.stable _
  refine keeps_of_lasting (φ := fun s => s.plain ∨ ∃ wh d, s = .updateBets wh d) lasting_claimed.imp ?_
    fun s w hs _ h => ?_
  · have hpaid (tx : Key) : Stmt.Issued (.markPaid x.1 tx) := fun _ => ⟨_, .reconcile x.1 tx⟩
    simp [Program.await, moneyReturns, hpaid, Stmt.issued_of_plain]
  · rcases hs with hs | ⟨wh, d, rfl⟩
    · cases s <;> trivial
    · trivial

lemma keeps_reconcilePendingPayouts (l : ℕ) :
    Keeps (moneyReturns P args b) i (fun _ => True) (BetsService.reconcilePendingPayouts P l) := by
  refine keeps_pass lasting_claimed (fun w w' bets hi hfind hb => ?_) fun x acc q => keeps_reconcileOne acc x
  obtain ⟨⟨id, bet⟩, hmem, rfl⟩ := List.mem_map.1 hb
  obtain ⟨hrow, hwh⟩ := (answers_findBets hfind).2 id bet hmem
  have hst : bet.status = .payoutPending := by simpa [BetWhere.holds] using hwh
  obtain ⟨a, rfl⟩ := hfind.world
  exact (hi.pending (by simp [statusIn, hrow, hst])).cons

def Restarts (id : ℕ) (s : Stmt) : Prop :=
  (∀ k ∈ s.key, k = .restartRefund id) ∧ ∀ id d, s = .updateBet id d → d.status = some .cancelled

lemma backed_of_restarts {id : ℕ} (hs : Restarts id s)
    (h : id = b → ReadActive b i w.log ∨ Forgone b w) : Backed b i w s := by
  cases s with
  | recordLedger wl a ty k ref =>
      obtain rfl : k = .restartRefund id := hs.1 k rfl
      exact ⟨by simp, by simp, fun hk => h (Key.restartRefund.inj hk)⟩
  | updateBet id' d =>
      have hd := hs.2 id' d rfl
      simp [Backed, hd]
  | _ => trivial

lemma restarts_of_paysUnder {id : ℕ} (hs : PaysUnder (.restartRefund id) s) : Restarts id s :=
  ⟨hs.1, fun id' d h => absurd h (hs.2 id' d)⟩

lemma reverse_restarts (x : ℕ × Bet) :
    (P.wallet.reverse x.2.walletId ⟨.debit x.2.slot, .restartRefund x.1, x.2.amount, .debit, .refund, x.1,
      some .restartRefund⟩).Uses fun s : Stmt => s.Issued ∧ Restarts x.1 s :=
  (reverse_paysUnder _ _).mono fun _ hs => ⟨hs.1, restarts_of_paysUnder hs.2⟩

lemma refundOne_restarts (x : ℕ × Bet) :
    (GameEngineService.refundOne P () x).Uses fun s : Stmt => s.Issued ∧ Restarts x.1 s := by
  refine uses_compositional.catching (uses_compositional.bind (reverse_restarts x) fun _ => ?_) fun _ => trivial
  exact await_uses ⟨fun _ => ⟨_, .refunded x.1⟩, by simp, fun _ _ h => by cases h; rfl⟩

lemma healOne_restarts (n : ℕ) (x : ℕ × Bet) :
    (GameEngineService.healOne P n x).Uses fun s : Stmt => s.Issued ∧ Restarts x.1 s := by
  refine uses_compositional.bind (uses_compositional.attempt
    (uses_compositional.bind (reverse_restarts x) fun _ => ?_)) fun _ => trivial
  exact await_uses ⟨fun _ => ⟨_, .healed x.1⟩, by simp, by simp⟩

lemma reverseSlot_restarts (x : ℕ × Bet) :
    (GameEngineService.reverseSlot P x).Uses fun s : Stmt => s.Issued ∧ Restarts x.1 s := by
  have hrollback : (P.wallet.rollback x.2.walletId (.debit x.2.slot) x.1).Uses
      fun s : Stmt => s.Issued ∧ Restarts x.1 s := by
    refine wallet_rollback_uses (m := fun _ => False) (u := fun _ => True) (fun s hs hk _ => ?_) trivial _ _
    refine ⟨fun hw => ?_, fun k h => absurd (hk k h) id, fun id d h => ?_⟩
    · cases s <;> simp_all
    · subst h
      exact absurd hs (by simp [Stmt.ofWallet])
  have hcredit : (P.wallet.credit x.2.walletId x.2.amount .refund (.restartRefund x.1) x.1).Uses
      fun s : Stmt => s.Issued ∧ Restarts x.1 s :=
    (credit_paysUnder _ _ _ _ _).mono fun _ hs => ⟨hs.1, restarts_of_paysUnder hs.2⟩
  refine uses_compositional.bind hrollback fun _ => uses_compositional.bind
    (await_uses ⟨Stmt.issued_of_plain rfl, by simp, by simp⟩) fun found => ?_
  split
  · refine uses_compositional.bind hcredit fun _ => ?_
    exact await_uses ⟨fun _ => ⟨_, .refundedSlot x.1⟩, by simp, fun _ _ h => by cases h; rfl⟩
  · refine uses_compositional.bind (uses_compositional.attempt ?_) fun _ => trivial
    exact await_uses ⟨fun _ => ⟨_, .forgetSlot x.1⟩, by simp, by simp⟩

lemma keeps_restarting {wh : BetWhere} {take : Option ℕ} {β : Type} {f : β → ℕ × Bet → Program game β} {acc : β}
    (hwh : allActive wh) (hf : ∀ x acc, (f acc x).Uses fun s : Stmt => s.Issued ∧ Restarts x.1 s) :
    Keeps (moneyReturns P args b) i (fun _ => True) (do
      let bets ← await (.findBets wh take)
      loop f acc bets) := by
  refine keeps_pass (Q := fun w => ReadActive b i w.log) lasting_read (fun w w' bets _ hfind hb => ?_)
    fun x acc q hq => keeps_of_lasting lasting_read.imp (hf x acc) fun s w hs _ hw =>
      backed_of_restarts hs fun hid => .inl (hw (hq hid))
  obtain ⟨a, rfl⟩ := hfind.world
  obtain ⟨x, hx, rfl⟩ := List.mem_map.1 hb
  have hany : bets.any (·.1 = x.1) := List.any_eq_true.2 ⟨x, hx, by simp⟩
  exact ⟨_, List.mem_cons_self, by simp [findsActive, hwh, hany]⟩

lemma keeps_closeAndRefundRound (n : ℕ) :
    Keeps (moneyReturns P args b) i (fun _ => True) (GameEngineService.closeAndRefundRound P n) := by
  have hpass : Keeps (moneyReturns P args b) i (fun _ => True) (do
      let bets ← await (.findBets { roundId := some n, status := some [.active] } none)
      loop (GameEngineService.refundOne P) () bets) :=
    keeps_restarting rfl fun x _ => refundOne_restarts x
  unfold GameEngineService.closeAndRefundRound
  rw [← Program.bind_assoc]
  exact keeps_bind hpass fun _ => keeps_plain (await_plain rfl)

lemma keeps_recoverStrandedActiveBets (n : ℕ) :
    Keeps (moneyReturns P args b) i (fun _ => True) (GameEngineService.recoverStrandedActiveBets P n) :=
  keeps_bind (keeps_plain (await_plain rfl)) fun _ => keeps_restarting rfl fun x n => healOne_restarts n x

lemma forgone_of_cancelling (hi : ReturnInv args b w) (h : statusIn w.state b = some .cancelling) : Forgone b w :=
  ⟨.inr (over_of_statusIn h rfl), hi.cancelling h⟩

/-- A fresh slot is taken before it is refunded; one that an earlier pass has taken is so already. -/
lemma keeps_recoverOne (n : ℕ) (x : ℕ × Bet) (hQ : (moneyReturns P args b).Lasting Q)
    (htaken : x.2.status ≠ .reserving → ∀ w, Q w → x.1 = b → Forgone b w) :
    Keeps (moneyReturns P args b) i Q (GameEngineService.recoverOne P n x) := by
  have hkeeps : Keeps (moneyReturns P args b) i (fun w => Q w ∧ (x.1 = b → Forgone b w))
      (GameEngineService.reverseSlot P x) :=
    keeps_of_lasting (hQ.and lasting_forgone.imp) (reverseSlot_restarts x) fun s w hs _ hw =>
      backed_of_restarts hs fun hid => .inr (hw.2 hid)
  have hreverse (f : Except Err Unit → Program game ℕ) (hf : ∀ done, ∃ m, f done = pure m) :
      Keeps (moneyReturns P args b) i (fun w => Q w ∧ (x.1 = b → Forgone b w))
        ((GameEngineService.reverseSlot P x).attempt >>= f) := by
    refine keeps_bind (keeps_attempt hkeeps) fun done => ?_
    obtain ⟨m, hm⟩ := hf done
    rw [hm]
    exact keeps_ret (hQ.and lasting_forgone.imp).stable m
  unfold GameEngineService.recoverOne GameEngineService.claimSlot
  split
  · refine fun w hi hw => sat_await_bind fun w₁ h₁ _ => ⟨trivial, fun r w₂ hswap hi₂ => ?_⟩
    have hw₂ : Q w₂ := hQ.answers (fun _ => ⟨_, .claimSlot x.1⟩) hswap (hQ.stable.interferes h₁ hw)
    rcases r with e | claimed
    · exact fun _ h₃ _ => hQ.stable.interferes h₃ hw₂
    by_cases hclaimed : claimed = 0
    · subst hclaimed
      exact fun _ h₃ _ => hQ.stable.interferes h₃ hw₂
    have hforgone : x.1 = b → Forgone b w₂ := by
      rintro rfl
      obtain ⟨o, σ', -, hexec, rfl⟩ := hswap
      obtain ⟨y, -, -, hrow⟩ := exec_swap hexec hclaimed
      exact forgone_of_cancelling hi₂ (by simp [statusIn, hrow])
    simp only [if_neg hclaimed]
    refine (hreverse _ (fun done => ?_) w₂ hi₂ ⟨hw₂, hforgone⟩).mono fun _ _ _ h => h.1
    cases done <;> exact ⟨_, rfl⟩
  · refine fun w hi hw => (hreverse _ (fun done => ?_) w hi ⟨hw, htaken ‹_› w hw⟩).mono fun _ _ _ h => h.1
    cases done <;> exact ⟨_, rfl⟩

lemma keeps_recoverReservingBets (n : ℕ) :
    Keeps (moneyReturns P args b) i (fun _ => True) (GameEngineService.recoverReservingBets P n) := by
  have hcutoff : (GameEngineService.cutoffOf n).Uses fun s : Stmt => s.plain := by
    simp [GameEngineService.cutoffOf, Program.await]
  refine keeps_bind (keeps_plain hcutoff) fun cutoff w _ _ => ?_
  refine sat_await_bind fun w₁ _ hi₁ => ⟨trivial, fun r w₂ hfind hi₂ => ?_⟩
  cases r with
  | error e => exact fun _ _ _ => trivial
  | ok slots =>
      -- the slots that an earlier pass has taken are cancelling as they are read
      have htaken : (∃ y, (b, y) ∈ slots ∧ y.status ≠ .reserving) → Forgone b w₂ := by
        rintro ⟨y, hmem, hne⟩
        obtain ⟨hsame, hfound⟩ := answers_findBets hfind
        obtain ⟨hrow, hwh⟩ := hfound b y hmem
        have hst : y.status = .cancelling := by simp_all [BetWhere.holds]
        exact forgone_of_cancelling hi₂ (by simp [statusIn, hsame, hrow, hst])
      have hlasting : (moneyReturns P args b).Lasting fun w => (∃ y, (b, y) ∈ slots ∧ y.status ≠ .reserving) → Forgone b w :=
        lasting_forgone.imp
      refine (keeps_loop hlasting.stable 0 (fun x hx n => ?_) w₂ hi₂ htaken).mono fun _ _ _ _ => trivial
      exact keeps_recoverOne n x hlasting fun hst w hw hid => hw ⟨x.2, hid ▸ hx, hst⟩

lemma moneyReturns_parts : Parts P fun _ p => Keeps (moneyReturns P args b) i (fun _ => True) p where
  plain := keeps_plain
  placeBet a _ := keeps_part (placeBet_uses a) (by decide)
  cancelBet n u p := keeps_cancelBet (fun _ h => h) stable_true keeps_plain n u p
    fun id bet ccy w _ _ hread _ => sat_claimRefund id bet ccy hread
  cashOut n u p mm := keeps_cashOut (fun _ h => h) stable_true keeps_plain n u p mm
    fun id bet mult ccy w _ _ _ => sat_claimWin id bet mult ccy
  settleRound r := keeps_part (settleRound_uses r) (by decide)
  voidBet o b := keeps_part (voidBet_uses o b) (by decide)
  reconcileVoidingBets l := keeps_part (reconcileVoidingBets_uses l) (by decide)
  reconcilePendingPayouts := keeps_reconcilePendingPayouts
  closeAndRefundRound := keeps_closeAndRefundRound
  recoverReservingBets := keeps_recoverReservingBets
  recoverStrandedActiveBets := keeps_recoverStrandedActiveBets
  drainPending l := keeps_part (drainPending_uses _ l) (by decide)

lemma moneyReturns_sound : (moneyReturns P args b).Sound :=
  sound_of_parts rfl (fun _ => stable_true) (fun _ => moneyReturns_parts)
    (fun _ _ _ _ _ hs hi hp ha => moneyReturns_step hs hi hp ha) (fun _ _ => moneyReturns_move)
    (fun _ _ _ _ => trivial) (fun _ _ _ _ _ => trivial) fun _ _ _ _ _ _ _ _ => trivial

lemma environment_postsNothing {e : Event} {σ σ' : State} {p : Program game Outcome} {n : ℕ} (hn : e = args n)
    (he : environment P e n σ = some (σ', some p)) :
    Follows (fun (m : Unit) _ _ => m) (PostsNothing args n) (fun _ _ => True) p () := by
  rcases environment_starts he with ⟨c, rfl, hc⟩ | ⟨node, phase, -, rfl⟩
  · by_cases hsettle : ∃ r, c = .settleRound r
    · obtain ⟨r, rfl⟩ := hsettle
      refine follows_of_uses (uses_compositional.map (settleRound_uses r)) fun m s hs _ => ?_
      exact Option.eq_none_iff_forall_not_mem.2 fun k hk => hs.owns hk
    · refine follows_of_uses (uses_true _) fun m s _ hs => ?_
      rw [← hn] at hs
      rcases hc with rfl | ⟨node, r, -, rfl⟩
      · cases c <;> first | exact absurd ⟨_, rfl⟩ hsettle | cases hs
      · exact absurd ⟨r, rfl⟩ hsettle
  · exact follows_of_uses (uses_true _) fun m s _ hs => by simp [← hn] at hs

end Programs

lemma returnInv_initial {σ : State} (h : Unreturned b σ) : ReturnInv args b ⟨σ, []⟩ := by
  have hnone (k : Key) (hk : k ∈ returnKeys b) : ¬ σ.ledger.row k ≠ none := by simp [h.1 k hk]
  refine ⟨fun hp => ?_, fun hp => ?_, fun hp => ?_, by simp [Claimed], by simp [Claimed], fun hp => ?_,
    by simp [refunding], by simp [Claimed], by simp [Settles]⟩
  · exact absurd hp (hnone _ (by simp [returnKeys]))
  · exact absurd hp (hnone _ (by simp [returnKeys]))
  · exact absurd hp (hnone _ (by simp [returnKeys]))
  · obtain ⟨x, hx, hst⟩ := Option.map_eq_some_iff.1 hp
    exact absurd hst (h.2 x hx)

theorem one_return_per_bet {σ : State} {c : GameConfig} (hσ : Unreturned b σ)
    (h : (returnRule b).Reaches (system P) (Config.initial σ) c) : OneReturn b c.world.state := by
  obtain ⟨args, -, hgiven⟩ := h.given
  have hrule : (moneyReturns P args b).rule.Reaches (system P) (Config.initial σ) c :=
    (hgiven args fun _ _ => rfl).following fun n e w a p hr he => environment_postsNothing (hr.2 a p he) he
  have hgood : c.Good (moneyReturns P args b) :=
    (Config.good_initial (returnInv_initial hσ)).reaches moneyReturns_sound hrule
  exact oneReturn_of_inv hgood.inv

section Runs

open Scenario

lemma unreturned_staked : Unreturned 0 (staked .betting .active) := by
  refine ⟨by decide, fun x hx => ?_⟩
  obtain rfl := Option.some.inj hx
  decide

theorem one_return_of_cancelBet :
    ∃ c : GameConfig, c.world.state.ledger.row (.refund 0) ≠ none ∧ OneReturn 0 c.world.state := by
  have hrun : (system (params false false)).run (Config.initial (staked .betting .active))
      [.env (.call (.cancelBet 0 1 .A)), act 0, act 0, act 0, act 0, act 0] = some _ := rfl
  exact ⟨_, by decide, one_return_per_bet unreturned_staked
    (Rule.reaches_of_run (R := returnRule 0) (by decide) hrun)⟩

/-- A closing round reads the bet as active, the player cancels it, and both refund the stake. -/
theorem two_returns_of_closeAndRefundRound :
    ∃ c : GameConfig, Unreturned 0 (staked .betting .active) ∧
      Rule.free.Reaches (system (params false false)) (Config.initial (staked .betting .active)) c ∧
        ¬ OneReturn 0 c.world.state := by
  have hrun : (system (params false false)).run (Config.initial (staked .betting .active))
      [.env (.call (.closeAndRefundRound 0)), act 0, .env (.call (.cancelBet 0 1 .A)), act 1, act 1,
        act 1, act 1, act 1, act 0] = some _ := rfl
  refine ⟨_, unreturned_staked, Rule.reaches_of_run Rule.obeys_free hrun, fun h => ?_⟩
  have := h (.refund 0) (by simp [returnKeys]) (.restartRefund 0) (by simp [returnKeys]) (by decide)
    (by decide)
  cases this

end Runs

end VaultRun.Safety.MoneyReturns
