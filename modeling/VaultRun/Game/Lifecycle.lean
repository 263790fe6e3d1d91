import VaultRun.Concurrency.History
import VaultRun.Game.Footprint

/-!
What every step keeps: bet ids are given out once, the terms of a bet never change, its stage only
grows, and a round keeps its crash point.
-/

namespace VaultRun.Game

open VaultRun.Concurrency VaultRun.Data

/-- A slot is reserved, then active, then over. -/
def BetStatus.stage : BetStatus → ℕ
  | reserving => 0
  | active => 1
  | _ => 2

lemma BetStatus.stage_le (s : BetStatus) : s.stage ≤ 2 := by cases s <;> simp [BetStatus.stage]

def Bet.terms (b : Bet) : NewBet where
  slot := b.slot
  walletId := b.walletId
  amount := b.amount
  autoCashout := b.autoCashout
  demo := b.demo
  operatorId := b.operatorId
  currency := b.currency
  maxWinPerBet := b.maxWinPerBet

@[simp] lemma NewBet.row_terms (d : NewBet) (now : ℕ) : (d.row now).terms = d := rfl

@[simp] lemma NewBet.row_status (d : NewBet) (now : ℕ) : (d.row now).status = .reserving := rfl

@[simp] lemma BetData.apply_terms (d : BetData) (now : ℕ) (b : Bet) :
    (d.apply now b).terms = b.terms := rfl

@[simp] lemma BetData.apply_status (d : BetData) (now : ℕ) (b : Bet) :
    (d.apply now b).status = d.status.getD b.status := rfl

@[simp] lemma RoundData.apply_crashPoint (d : RoundData) (now : ℕ) (r : Round) :
    (d.apply now r).crashPoint = r.crashPoint := rfl

structure Later (σ σ' : State) : Prop where
  next : σ.bets.next ≤ σ'.bets.next
  bet : ∀ b x', b < σ.bets.next → σ'.bets.row b = some x' →
    ∃ x, σ.bets.row b = some x ∧ x'.terms = x.terms ∧ x.status.stage ≤ x'.status.stage
  round : ∀ r x, σ.rounds.row r = some x →
    ∃ x', σ'.rounds.row r = some x' ∧ x'.crashPoint = x.crashPoint

namespace Later

variable {σ σ' σ'' : State}

lemma refl (σ : State) : Later σ σ :=
  ⟨le_rfl, fun _ x _ hx => ⟨x, hx, rfl, le_rfl⟩, fun _ x hx => ⟨x, hx, rfl⟩⟩

lemma trans (h : Later σ σ') (h' : Later σ' σ'') : Later σ σ'' := by
  refine ⟨h.next.trans h'.next, fun b x'' hb hx'' => ?_, fun r x hx => ?_⟩
  · obtain ⟨x', hx', ht', hs'⟩ := h'.bet b x'' (hb.trans_le h.next) hx''
    obtain ⟨x, hx, ht, hs⟩ := h.bet b x' hb hx'
    exact ⟨x, hx, ht'.trans ht, hs.trans hs'⟩
  · obtain ⟨x', hx', hc⟩ := h.round r x hx
    obtain ⟨x'', hx'', hc'⟩ := h'.round r x' hx'
    exact ⟨x'', hx'', hc'.trans hc⟩

lemma of_same (h : SameTables σ σ') : Later σ σ' := by
  refine ⟨by rw [h.bets], fun b x' _ hx' => ?_, fun r x hx => ?_⟩
  · rw [h.bets] at hx'
    exact ⟨x', hx', rfl, le_rfl⟩
  · rw [h.rounds]
    exact ⟨x, hx, rfl⟩

end Later

section Exec

variable {P : Params} {o : Oracle} {i b : ℕ} {s : Stmt} {σ σ' : State} {r : game.Reply s}

lemma Part.Writes.stage_le {p : Part} {w : BetWhere} {d : BetData} {now : ℕ} {x : Bet}
    {rounds : Records Round Round.seedId} (h : p.Writes (.updateBets w d)) (hw : w.holds rounds b x) :
    x.status.stage ≤ (d.apply now x).status.stage := by
  cases h with
  | activate id tx =>
      have hx : x.status = .reserving := by simp_all [BetWhere.holds]
      rw [hx]
      exact Nat.zero_le _
  | stampDebit => exact le_rfl
  | _ => exact x.status.stage_le

lemma Part.Writes.stage_le_byId {p : Part} {id : ℕ} {d : BetData} {now : ℕ} {x : Bet}
    (h : p.Writes (.updateBet id d)) : x.status.stage ≤ (d.apply now x).status.stage := by
  cases h with
  | paid => exact le_rfl
  | pending | refunded | refundedSlot => exact x.status.stage_le

lemma exec_later_bet (h : exec P o i s σ = some (r, σ')) (hs : s.Issued) {x' : Bet}
    (hb : b < σ.bets.next) (hx' : σ'.bets.row b = some x') :
    ∃ x, σ.bets.row b = some x ∧ x'.terms = x.terms ∧ x.status.stage ≤ x'.status.stage := by
  rcases exec_betChange h b with hk | ⟨rfl, -, -⟩ | ⟨hold, hw, hrow⟩ | ⟨hold, hrow⟩ | hdel
  · exact ⟨x', by rwa [← hk], rfl, le_rfl⟩
  · exact absurd hb (lt_irrefl _)
  · obtain ⟨p, hp⟩ := hs rfl
    obtain rfl := Option.some.inj (hrow.symm.trans hx')
    exact ⟨_, hold, by simp, hp.stage_le hw⟩
  · obtain ⟨p, hp⟩ := hs rfl
    obtain rfl := Option.some.inj (hrow.symm.trans hx')
    exact ⟨_, hold, by simp, hp.stage_le_byId⟩
  · rw [hdel] at hx'
    cases hx'

lemma exec_payout (h : exec P o i s σ = some (r, σ')) (hs : s.Issued) {x x' : Bet}
    (hx : σ.bets.row b = some x) (hst : x.status.stage = 2) (hx' : σ'.bets.row b = some x') :
    x'.payout = x.payout := by
  rcases exec_betChange h b with hk | ⟨rfl, -, -⟩ | ⟨hold, hw, hrow⟩ | ⟨hold, hrow⟩ | hdel
  · rw [hk, hx] at hx'
    rw [Option.some.inj hx']
  · exact absurd (σ.bets.fresh _ x hx) (lt_irrefl _)
  · obtain ⟨p, hp⟩ := hs rfl
    obtain rfl := Option.some.inj (hx.symm.trans hold)
    obtain rfl := Option.some.inj (hrow.symm.trans hx')
    cases hp with
    | cashOut id mult payout =>
        have hactive : x.status = .active := by simp_all [BetWhere.holds]
        rw [hactive] at hst
        cases hst
    | _ => rfl
  · obtain ⟨p, hp⟩ := hs rfl
    obtain rfl := Option.some.inj (hx.symm.trans hold)
    obtain rfl := Option.some.inj (hrow.symm.trans hx')
    cases hp <;> rfl
  · rw [hdel] at hx'
    cases hx'

lemma perform_next (h : perform P i s σ = some (r, σ')) : σ.bets.next ≤ σ'.bets.next := by
  cases hs : s.writesBets with
  | false => rw [(perform_leaves h).bets hs]
  | true =>
      cases s <;> simp only [Stmt.writesBets, reduceCtorEq] at hs
      case createBet d =>
        simp only [perform, State.createBet, Option.some.injEq] at h
        split_ifs at h <;> obtain ⟨rfl, rfl⟩ := Prod.mk.inj h <;> simp
      case updateBets w d =>
        obtain ⟨rfl, rfl⟩ := Prod.mk.inj (Option.some.inj h)
        exact le_rfl
      case updateBet id d =>
        simp only [perform] at h
        split_ifs at h <;> obtain ⟨rfl, rfl⟩ := Prod.mk.inj (Option.some.inj h) <;> exact le_rfl
      case deleteBet id =>
        simp only [perform] at h
        split_ifs at h <;> obtain ⟨rfl, rfl⟩ := Prod.mk.inj (Option.some.inj h) <;> exact le_rfl

lemma exec_next (h : exec P o i s σ = some (r, σ')) : σ.bets.next ≤ σ'.bets.next := by
  rcases exec_cases h with hp | ⟨-, e, -, rfl | ⟨r', hp⟩⟩ | ⟨-, rfl⟩
  · exact perform_next hp
  · exact le_rfl
  · exact perform_next hp
  · exact le_rfl

lemma exec_round (h : exec P o i s σ = some (r, σ')) {n : ℕ} {x : Round}
    (hx : σ.rounds.row n = some x) :
    ∃ x', σ'.rounds.row n = some x' ∧ x'.crashPoint = x.crashPoint := by
  rcases exec_roundChange h n with hk | ⟨rfl, -⟩ | ⟨hold, hrow⟩ | ⟨hold, hrow⟩
  · exact ⟨x, hk.trans hx, rfl⟩
  · exact absurd (σ.rounds.fresh _ x hx) (lt_irrefl _)
  · obtain rfl := Option.some.inj (hx.symm.trans hold)
    exact ⟨_, hrow, rfl⟩
  · obtain rfl := Option.some.inj (hx.symm.trans hold)
    exact ⟨_, hrow, rfl⟩

lemma exec_later (h : exec P o i s σ = some (r, σ')) (hs : s.Issued) : Later σ σ' :=
  ⟨exec_next h, fun _ _ hb hx' => exec_later_bet h hs hb hx', fun _ _ hx => exec_round h hx⟩

end Exec

/-- Bet `b` has existed and is over, unless it has been deleted. -/
def State.Over (σ : State) (b : ℕ) : Prop :=
  b < σ.bets.next ∧ ∀ x, σ.bets.row b = some x → x.status.stage = 2

/-- Bet `b` has existed, on the terms `d`. -/
def State.OnTerms (σ : State) (b : ℕ) (d : NewBet) : Prop :=
  b < σ.bets.next ∧ ∀ x, σ.bets.row b = some x → x.terms = d

def statusIn (σ : State) (b : ℕ) : Option BetStatus := (σ.bets.row b).map (·.status)

section State

variable {σ σ' : State} {b : ℕ} {d : NewBet} {x : Bet} {t : BetStatus}

lemma State.Over.later (h : σ.Over b) (hl : Later σ σ') : σ'.Over b := by
  refine ⟨h.1.trans_le hl.next, fun x' hx' => ?_⟩
  obtain ⟨x, hx, -, hle⟩ := hl.bet b x' h.1 hx'
  have := h.2 x hx
  have := x'.status.stage_le
  omega

lemma State.over_of_row (h : σ.bets.row b = some x) (hx : x.status.stage = 2) : σ.Over b := by
  refine ⟨σ.bets.fresh b x h, fun y hy => ?_⟩
  rw [h] at hy
  rwa [← Option.some.inj hy]

lemma over_of_statusIn (h : statusIn σ b = some t) (ht : t.stage = 2) : σ.Over b := by
  obtain ⟨y, hy, rfl⟩ := Option.map_eq_some_iff.1 h
  exact State.over_of_row hy ht

lemma not_active_of_over (h : σ.Over b) : statusIn σ b ≠ some .active := by
  intro hs
  obtain ⟨y, hy, hst⟩ := Option.map_eq_some_iff.1 hs
  have := h.2 y hy
  simp [hst, BetStatus.stage] at this

lemma State.OnTerms.later (h : σ.OnTerms b d) (hl : Later σ σ') : σ'.OnTerms b d := by
  refine ⟨h.1.trans_le hl.next, fun x' hx' => ?_⟩
  obtain ⟨x, hx, ht, -⟩ := hl.bet b x' h.1 hx'
  exact ht.trans (h.2 x hx)

lemma State.onTerms_of_row (h : σ.bets.row b = some x) : σ.OnTerms b x.terms := by
  refine ⟨σ.bets.fresh b x h, fun y hy => ?_⟩
  rw [h] at hy
  rw [Option.some.inj hy]

end State

def creates (i b : ℕ) : GameEntry → Prop
  | .answered j (.createBet _) r _ _ => j = i ∧ r = .ok b
  | _ => False

def Made (i b : ℕ) (log : List GameEntry) : Prop := ∃ x ∈ log, creates i b x

structure Owned (w : GameWorld) : Prop where
  lt_next : ∀ i b, Made i b w.log → b < w.state.bets.next
  unique : ∀ i j b, Made i b w.log → Made j b w.log → i = j

section Made

variable {P : Params} {o : Oracle} {i j b : ℕ} {s : Stmt} {r : game.Reply s} {w w' : GameWorld}
  {σ' : State} {x : GameEntry} {log : List GameEntry}

lemma made_cons : Made i b (x :: log) ↔ creates i b x ∨ Made i b log := by
  simp [Made]

lemma Made.cons (h : Made i b log) : Made i b (x :: log) := made_cons.2 (.inr h)

lemma exec_createBet {d : NewBet} {σ : State}
    (h : exec P o i (.createBet d) σ = some (.ok b, σ')) :
    b = σ.bets.next ∧ σ'.bets.row b = some (d.row σ.now) ∧ σ'.bets.next = b + 1 := by
  have hp := perform_of_ok h rfl
  simp only [perform, State.createBet, Option.some.injEq] at hp
  split_ifs at hp
  · obtain ⟨hb, rfl⟩ := Prod.mk.inj hp
    obtain rfl := Except.ok.inj hb
    simp
  · cases (Prod.mk.inj hp).1

lemma Owned.answer (h : Owned w) (hexec : exec P o i s w.state = some (r, σ')) :
    Owned (w.answer i s r σ') := by
  have hnext := exec_next hexec
  have hnew {j c : ℕ} (hc : creates j c (.answered i s r w.state σ')) :
      j = i ∧ c = w.state.bets.next ∧ σ'.bets.next = c + 1 := by
    unfold creates at hc
    split at hc
    · rename_i heq
      obtain ⟨rfl, rfl⟩ := hc
      cases heq
      obtain ⟨hb, -, hn⟩ := exec_createBet hexec
      exact ⟨rfl, hb, hn⟩
    · cases hc
  refine ⟨fun j c hm => ?_, fun j k c hj hk => ?_⟩
  · rcases made_cons.1 hm with hc | hm
    · obtain ⟨-, -, hn⟩ := hnew hc
      rw [World.answer_state, hn]
      omega
    · exact (h.lt_next j c hm).trans_le hnext
  · rcases made_cons.1 hj with hj | hj <;> rcases made_cons.1 hk with hk | hk
    · exact (hnew hj).1.trans (hnew hk).1.symm
    · have := h.lt_next k c hk
      have := (hnew hj).2.1
      omega
    · have := h.lt_next j c hj
      have := (hnew hk).2.1
      omega
    · exact h.unique j k c hj hk

lemma Owned.moves {C : Contract (system P)} (h : Owned w) (hm : C.Moves w w') : Owned w' := by
  have hmade (j c : ℕ) : Made j c w'.log → Made j c w.log := by
    rcases hm with ⟨n, e, a, p, -, -, rfl⟩ | ⟨k, -, rfl⟩
    · exact fun hj => (made_cons.1 hj).resolve_left id
    · exact fun hj => (made_cons.1 hj).resolve_left id
  refine ⟨fun j c hj => ?_, fun j k c hj hk => h.unique j k c (hmade j c hj) (hmade k c hk)⟩
  rw [(moves_tables hm).bets]
  exact h.lt_next j c (hmade j c hj)

lemma owned_initial (σ : State) : Owned ⟨σ, []⟩ := by
  constructor <;> simp [Made]

end Made

section Contract

variable {P : Params} {C : Contract (system P)} {i : ℕ} {w w' : GameWorld}

lemma answers_later {s : Stmt} {r : game.Reply s} (h : C.Answers i s w r w') (hs : s.Issued) :
    Later w.state w'.state := by
  obtain ⟨o, a, -, ha, rfl⟩ := h
  exact exec_later ha hs

lemma moves_later (h : C.Moves w w') : Later w.state w'.state := .of_same (moves_tables h)

lemma disturbs_later (hC : ∀ s, C.stmts s → s.Issued) (h : C.Disturbs i w w') :
    Later w.state w'.state := by
  rcases h.2.2 with hm | ⟨j, s, r, -, hs, -, ha⟩
  · exact moves_later hm
  · exact answers_later ha (hC s hs)

lemma stable_of_later (hC : ∀ s, C.stmts s → s.Issued) (p : State → Prop)
    (hp : ∀ σ σ', Later σ σ' → p σ → p σ') : C.Stable i fun w => p w.state :=
  fun _ _ h hw => hp _ _ (disturbs_later hC h) hw

lemma stable_onTerms (hC : ∀ s, C.stmts s → s.Issued) (b : ℕ) (d : NewBet) :
    C.Stable i fun w => w.state.OnTerms b d :=
  stable_of_later hC (·.OnTerms b d) fun _ _ hl h => h.later hl

lemma sound_of_uses {J : ℕ → GameWorld → Prop} (huses : Parts P fun _ p => p.Uses C.stmts)
    (hJ : ∀ i, C.Stable i (J i)) (hparts : ∀ i, Parts P fun _ p => Keeps C i (J i) p)
    (hstep : ∀ i s w r w', C.stmts s → C.inv w → C.pre i s w → C.Answers i s w r w' → C.inv w')
    (hmove : ∀ w w', C.inv w → C.Moves w w' → C.inv w')
    (hfresh : ∀ n w, C.inv w → (∀ x ∈ w.log, ∀ s, ¬ x.Issues n s) → J n w)
    (hended : ∀ i r w, C.inv w → J i w → C.ended i (some r) w)
    (hkill : ∀ i w, C.inv w → C.rule.kill i w → C.inv (w.kill i (w.state.abort i)) →
      C.Settled i (w.kill i (w.state.abort i))) : C.Sound where
  step := hstep
  move := hmove
  start n e w a p hi hlog _ he hi' := by
    have hkeeps := environment_parts (hparts n) (keeps_compositional (hJ n)) he
    refine ⟨environment_parts huses uses_compositional he, ?_⟩
    refine (hkeeps _ hi' (hfresh n _ hi' ?_)).mono fun r w hi hw => hended n r w hi hw
    rintro x hx s hs
    rcases List.mem_cons.1 hx with rfl | hx
    · obtain ⟨r, b, a, h⟩ := hs
      cases h
    · exact hlog x hx s hs
  kill := hkill

/-- A contract that asks nothing of a finished call is sound once every part keeps it. -/
lemma sound_of_parts (hstmts : C.stmts = Stmt.Issued) {J : ℕ → GameWorld → Prop}
    (hJ : ∀ i, C.Stable i (J i)) (hparts : ∀ i, Parts P fun _ p => Keeps C i (J i) p)
    (hstep : ∀ i s w r w', Stmt.Issued s → C.inv w → C.pre i s w → C.Answers i s w r w' → C.inv w')
    (hmove : ∀ w w', C.inv w → C.Moves w w' → C.inv w')
    (hfresh : ∀ n w, C.inv w → lastBy n w.log = none → J n w)
    (hended : ∀ i r w, C.inv w → J i w → C.ended i (some r) w)
    (hkill : ∀ i w, C.inv w → C.rule.kill i w → C.inv (w.kill i (w.state.abort i)) →
      C.Settled i (w.kill i (w.state.abort i))) : C.Sound := by
  have huses : Parts P fun _ p => p.Uses C.stmts := by
    rw [hstmts]
    exact parts_uses (fun _ => Stmt.issued_of_plain) fun _ _ => Part.Issues.issued
  refine sound_of_uses huses hJ hparts (hstmts ▸ hstep) hmove (fun n w hi hlog => ?_) hended hkill
  exact hfresh n w hi (lastBy_eq_none hlog)

end Contract

end VaultRun.Game
