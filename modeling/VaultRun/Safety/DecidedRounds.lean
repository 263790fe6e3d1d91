import VaultRun.Game.Claims
import VaultRun.Game.Scenario

/-!
No bet goes live on a decided round or outlives its settlement, as long as no reservation is made on a
round that is closed or still waits for its debit when the round closes: the activation itself does not
look at the round.
-/

namespace VaultRun.Safety.DecidedRounds

open VaultRun.Concurrency VaultRun.Game Program

def decidedPhase (p : Phase) : Bool := p ∈ [Phase.crashed, .settling, .completed]

def Decided (r : ℕ) (σ : State) : Prop := (σ.rounds.row r).any (decidedPhase ·.status)

/-- Round `r` has been decided by now. -/
def Reached (r : ℕ) (w : GameWorld) : Prop := Decided r w.state ∨ ∃ x ∈ w.log, Decided r x.before

def AnyOn (r : ℕ) (st : BetStatus) (σ : State) : Prop :=
  ∃ b x, σ.bets.row b = some x ∧ x.slot.roundId = r ∧ x.status = st

@[reducible] def settles : Event → Option ℕ
  | .onSettle _ r | .call (.settleRound r) => some r
  | _ => none

def startsSettling (r : ℕ) : GameEntry → Bool
  | .moved _ e _ _ => settles e = some r
  | _ => false

/-- Round `r` has been decided, or its settlement has started. -/
def Closed (r : ℕ) (w : GameWorld) : Prop := Reached r w ∨ ∃ x ∈ w.log, startsSettling r x

@[reducible] def reservesOn : Stmt → Option ℕ
  | .createBet d => some d.slot.roundId
  | _ => none

@[reducible] def decides : Stmt → Option ℕ
  | .updateRound r d => if d.status.any decidedPhase then some r else none
  | _ => none

/-- No bet is reserved on a closed round, and a round is closed when nothing on it is reserved. -/
@[reducible] def roundRule : GameRule where
  act _ _ s w := (∀ r ∈ reservesOn s, ¬ Closed r w) ∧ ∀ r ∈ decides s, ¬ AnyOn r .reserving w.state
  kill _ _ := True
  env _ e w := ∀ r ∈ settles e, ¬ AnyOn r .reserving w.state

/-- A bet goes live on a round that has not been decided. -/
def LiveInTime (x : GameEntry) (earlier : List GameEntry) : Prop :=
  ∀ b y, x.before.bets.row b = some y → y.status = .reserving →
    statusIn x.after b = some .active → ¬ Reached y.slot.roundId ⟨x.before, earlier⟩

structure RoundInv (w : GameWorld) : Prop where
  live : Throughout LiveInTime w.log
  reserving : ∀ r, Closed r w → ¬ AnyOn r .reserving w.state

/-- A closed round without live bets stays so. -/
def Quiet (r : ℕ) (w : GameWorld) : Prop := Closed r w ∧ ¬ AnyOn r .active w.state

def decidedRounds (P : Params) : Contract (system P) where
  rule := roundRule
  inv := RoundInv
  stmts := Stmt.Issued
  pre _ _ _ := True
  ended _ r w := ∀ n l, r = some (.ok (.settled n l)) → Quiet n w

variable {P : Params} {i n : ℕ} {w w' : GameWorld} {s : Stmt} {r : game.Reply s} {o : Oracle}
  {σ σ' : State} {x : GameEntry}

section Step

variable (hexec : exec P o i s σ = some (r, σ'))
include hexec

lemma decided_exec (h : Decided n σ') : Decided n σ ∨
    ∃ d, s = .updateRound n d ∧ d.status.any decidedPhase := by
  obtain ⟨y, hy, hst⟩ := (Option.any_eq_true _ _).1 h
  have hold {old : Round} (hrow : σ.rounds.row n = some old) (hdec : decidedPhase old.status) :
      Decided n σ := by
    rw [Decided, hrow]
    exact hdec
  rcases exec_roundChange hexec n with hk | ⟨-, hrow⟩ | ⟨hrow, hrow'⟩ | ⟨hrow, hrow'⟩
  · exact .inl (hold (hk ▸ hy) hst)
  · obtain rfl := Option.some.inj (hrow.symm.trans hy)
    cases hst
  · obtain rfl := Option.some.inj (hrow'.symm.trans hy)
    rename_i d old
    cases hd : d.status with
    | none =>
        refine .inl (hold hrow ?_)
        simpa [RoundData.apply, hd] using hst
    | some st =>
        refine .inr ⟨d, rfl, ?_⟩
        simpa [RoundData.apply, hd] using hst
  · obtain rfl := Option.some.inj (hrow'.symm.trans hy)
    exact .inl (hold hrow hst)

lemma reserving_exec (hs : s.Issued) (h : AnyOn n .reserving σ') :
    AnyOn n .reserving σ ∨ ∃ d, s = .createBet d ∧ d.slot.roundId = n := by
  obtain ⟨b, x, hx, hround, hst⟩ := h
  rcases exec_betChange hexec b with hk | ⟨rfl, -, hrow⟩ | ⟨hold, hw, hrow⟩ | ⟨hold, hrow⟩ | hdel
  · exact .inl ⟨b, x, hk ▸ hx, hround, hst⟩
  · obtain rfl := Option.some.inj (hrow.symm.trans hx)
    exact .inr ⟨_, rfl, hround⟩
  · obtain ⟨p, hp⟩ := hs rfl
    obtain rfl := Option.some.inj (hrow.symm.trans hx)
    cases hp with
    | stampDebit => exact .inl ⟨b, _, hold, hround, hst⟩
    | _ => simp at hst
  · obtain ⟨p, hp⟩ := hs rfl
    obtain rfl := Option.some.inj (hrow.symm.trans hx)
    cases hp with
    | paid => exact .inl ⟨b, _, hold, hround, hst⟩
    | _ => simp at hst
  · rw [hdel] at hx
    cases hx

lemma active_exec (hs : s.Issued) (h : AnyOn n .active σ') :
    AnyOn n .active σ ∨ AnyOn n .reserving σ := by
  obtain ⟨b, x, hx, hround, hst⟩ := h
  rcases exec_betChange hexec b with hk | ⟨rfl, -, hrow⟩ | ⟨hold, hw, hrow⟩ | ⟨hold, hrow⟩ | hdel
  · exact .inl ⟨b, x, hk ▸ hx, hround, hst⟩
  · obtain rfl := Option.some.inj (hrow.symm.trans hx)
    simp at hst
  · obtain ⟨p, hp⟩ := hs rfl
    obtain rfl := Option.some.inj (hrow.symm.trans hx)
    cases hp with
    | stampDebit => exact .inl ⟨b, _, hold, hround, hst⟩
    | activate id tx =>
        simp only [BetWhere.holds, Option.all_some, Bool.and_eq_true] at hw
        exact .inr ⟨b, _, hold, hround, by simpa using hw.1.1.1.1.2⟩
    | _ => simp at hst
  · obtain ⟨p, hp⟩ := hs rfl
    obtain rfl := Option.some.inj (hrow.symm.trans hx)
    cases hp with
    | paid => exact .inl ⟨b, _, hold, hround, hst⟩
    | _ => simp at hst
  · rw [hdel] at hx
    cases hx

end Step

lemma reached_cons {log : List GameEntry} (hx : x.before = σ) :
    Reached n ⟨σ', x :: log⟩ ↔ Decided n σ' ∨ Reached n ⟨σ, log⟩ := by
  simp [Reached, hx]

lemma closed_cons {log : List GameEntry} (hx : x.before = σ) :
    Closed n ⟨σ', x :: log⟩ ↔ Decided n σ' ∨ startsSettling n x ∨ Closed n ⟨σ, log⟩ := by
  simp only [Closed, reached_cons hx, List.mem_cons, exists_eq_or_imp]
  tauto

lemma liveInTime (hi : RoundInv w) (hx : x.before = w.state) : LiveInTime x w.log := by
  intro b y hy hst _ hreached
  rw [hx] at hy hreached
  exact hi.reserving _ (.inl hreached) ⟨b, y, hy, rfl, hst⟩

lemma decidedRounds_step (hs : s.Issued) (hi : RoundInv w)
    (ha : (decidedRounds P).Answers i s w r w') : RoundInv w' := by
  obtain ⟨o, σ', hrule, hexec, rfl⟩ := ha
  refine ⟨⟨liveInTime hi rfl, hi.live⟩, fun n hclosed hany => ?_⟩
  have hopen {d : NewBet} (h : s = .createBet d) (hd : d.slot.roundId = n) : ¬ Closed n w := by
    subst h hd
    exact hrule.1 _ rfl
  rcases (closed_cons rfl).1 hclosed with hdec | hstart | hold
  · rcases decided_exec hexec hdec with hdec | ⟨d, rfl, hd⟩
    · rcases reserving_exec hexec hs hany with hany | ⟨d, h, hd⟩
      · exact hi.reserving n (.inl (.inl hdec)) hany
      · exact hopen h hd (.inl (.inl hdec))
    · rcases reserving_exec hexec hs hany with hany | ⟨d', h, -⟩
      · exact hrule.2 n (if_pos hd) hany
      · cases h
  · cases hstart
  · rcases reserving_exec hexec hs hany with hany | ⟨d, h, hd⟩
    · exact hi.reserving n hold hany
    · exact hopen h hd hold

lemma anyOn_same {st : BetStatus} (h : SameTables σ σ') : AnyOn n st σ' ↔ AnyOn n st σ := by
  rw [AnyOn, AnyOn, h.bets]

lemma decided_same (h : SameTables σ σ') : Decided n σ' ↔ Decided n σ := by
  rw [Decided, Decided, h.rounds]

lemma closed_moves (hm : (decidedRounds P).Moves w w') (h : Closed n w') :
    Closed n w ∨ ¬ AnyOn n .reserving w.state := by
  have htables := moves_tables hm
  rcases hm with ⟨k, e, a, p, hrule, -, rfl⟩ | ⟨j, -, rfl⟩
  · rcases (closed_cons rfl).1 h with hdec | hstart | hold
    · exact .inl (.inl (.inl ((decided_same htables).1 hdec)))
    · right
      exact hrule n (of_decide_eq_true hstart)
    · exact .inl hold
  · rcases (closed_cons rfl).1 h with hdec | hstart | hold
    · exact .inl (.inl (.inl ((decided_same htables).1 hdec)))
    · cases hstart
    · exact .inl hold

lemma decidedRounds_move (hi : RoundInv w) (hm : (decidedRounds P).Moves w w') : RoundInv w' := by
  refine ⟨?_, fun n hclosed hany => ?_⟩
  · rcases hm with ⟨k, e, a, p, -, -, rfl⟩ | ⟨j, -, rfl⟩
    · exact ⟨liveInTime hi rfl, hi.live⟩
    · exact ⟨liveInTime hi rfl, hi.live⟩
  · have hany := (anyOn_same (moves_tables hm)).1 hany
    rcases closed_moves hm hclosed with hold | hnone
    · exact hi.reserving n hold hany
    · exact hnone hany

section Programs

lemma closed_answers (h : Closed n w) (ha : (decidedRounds P).Answers i s w r w') : Closed n w' := by
  obtain ⟨o, σ', -, -, rfl⟩ := ha
  exact (closed_cons rfl).2 (.inr (.inr h))

lemma Closed.moves (h : Closed n w) (hm : (decidedRounds P).Moves w w') : Closed n w' := by
  rcases hm with ⟨k, e, a, p, -, -, rfl⟩ | ⟨j, -, rfl⟩
  · exact (closed_cons rfl).2 (.inr (.inr h))
  · exact (closed_cons rfl).2 (.inr (.inr h))

lemma stable_closed : (decidedRounds P).Stable i (Closed n) := by
  rintro w w' ⟨-, -, hm | ⟨j, s, r, -, -, -, ha⟩⟩ hw
  · exact hw.moves hm
  · exact closed_answers hw ha

lemma Quiet.answer (h : Quiet n w) (hs : s.Issued) (hi : RoundInv w)
    (ha : (decidedRounds P).Answers i s w r w') : Quiet n w' := by
  refine ⟨closed_answers h.1 ha, fun hany => ?_⟩
  obtain ⟨o, σ', -, hexec, rfl⟩ := ha
  rcases active_exec hexec hs hany with hactive | hreserving
  · exact h.2 hactive
  · exact hi.reserving n h.1 hreserving

lemma stable_quiet : (decidedRounds P).Stable i (Quiet n) := by
  rintro w w' ⟨hi, -, hm | ⟨j, s, r, -, hs, -, ha⟩⟩ hw
  · exact ⟨hw.1.moves hm, fun h => hw.2 ((anyOn_same (moves_tables hm)).1 h)⟩
  · exact hw.answer hs hi ha

lemma sat_settleRound (hw : Closed n w) :
    Sat (decidedRounds P) i (fun r w => ∀ l, r = .ok l → Quiet n w) (BetsService.settleRound n) w := by
  refine sat_await_bind fun w₁ h₁ _ => ⟨trivial, fun r w₂ ha _ => ?_⟩
  have hw₂ := closed_answers (stable_closed.interferes h₁ hw) ha
  cases r with
  | error e => exact fun _ _ _ l hl => by cases hl
  | ok active =>
      dsimp only
      split
      · intro w₃ h₃ _ l _
        refine stable_quiet.interferes h₃ ⟨hw₂, ?_⟩
        rintro ⟨b, x, hx, hround, hst⟩
        obtain ⟨o, σ', -, hexec, rfl⟩ := ha
        obtain ⟨hfound, rfl⟩ : w₁.state.bets.findMany (BetWhere.holds
            { roundId := some n, status := some [.active] } w₁.state.rounds) = active ∧
            w₁.state = σ' := by
          simpa [perform] using perform_of_ok hexec rfl
        have hnil := Data.Table.findMany_eq_nil.1 (hfound.trans (List.isEmpty_iff.1 ‹_›)) b x hx
        simp [BetWhere.holds, hround, hst] at hnil
      · refine sat_await_bind fun w₃ h₃ _ => ⟨trivial, fun r w₄ ha' _ => ?_⟩
        have hw₄ := closed_answers (stable_closed.interferes h₃ hw₂) ha'
        cases r with
        | error e => exact fun _ _ _ l hl => by cases hl
        | ok count =>
            intro w₅ h₅ _ l _
            refine stable_quiet.interferes h₅ ⟨hw₄, ?_⟩
            rintro ⟨b, x, hx, hround, hst⟩
            obtain ⟨o, σ', -, hexec, rfl⟩ := ha'
            obtain ⟨-, rfl⟩ : _ ∧ w₃.state.updateBets { roundId := some n, status := some [.active] }
                { status := some .busted, settles := true } = σ' := by
              simpa [perform] using perform_of_ok hexec rfl
            rw [World.answer_state, updateBets_row] at hx
            obtain ⟨y, hy, rfl⟩ := Option.map_eq_some_iff.1 hx
            -- The bust has moved every live bet of the round away from `active`.
            by_cases hw : BetWhere.holds { roundId := some n, status := some [.active] }
                w₃.state.rounds b y
            · rw [if_pos hw] at hst
              simp [BetData.apply] at hst
            · rw [if_neg hw] at hst hround
              simp [BetWhere.holds, hround, hst] at hw

lemma call_of_settled {c : Call} {l : List (ℕ × Panel)} (h : (c.prog P).Returns (.settled n l)) :
    c = .settleRound n := by
  cases c <;> simp_all [Call.prog, returns_map, returns_bind]

lemma sat_call (c : Call) (hc : ∀ n, c = .settleRound n → Closed n w) :
    Sat (decidedRounds P) i (fun r => (decidedRounds P).ended i (some r)) (c.prog P) w := by
  by_cases hsettle : ∃ n, c = .settleRound n
  · obtain ⟨n, rfl⟩ := hsettle
    refine sat_bind ((sat_settleRound (hc n rfl)).mono fun r w₁ _ hr => ?_)
    match r with
    | .error e =>
        intro m l h
        cases h
    | .ok busted =>
        intro w₂ h₂ _ m l h
        cases h
        exact stable_quiet.interferes h₂ (hr _ rfl)
  · refine (sat_returns fun _ _ => trivial).mono fun r w₁ _ hr m l h => ?_
    exact absurd ⟨m, call_of_settled (hr _ (Option.some.inj h))⟩ hsettle

lemma decidedRounds_sound : (decidedRounds P).Sound where
  step _ _ _ _ _ hs hi _ ha := decidedRounds_step hs hi ha
  move _ _ := decidedRounds_move
  start k e w a p hi _ _ he _ := by
    refine ⟨environment_issued he, ?_⟩
    rcases environment_starts he with ⟨c, rfl, hc⟩ | ⟨node, phase, rfl, -⟩
    · refine sat_call c fun n hn => (closed_cons rfl).2 (.inr (.inl ?_))
      rcases hc with rfl | ⟨node, m, rfl, rfl⟩
      · subst hn
        exact decide_eq_true rfl
      · cases hn
        exact decide_eq_true rfl
    · refine (sat_returns fun _ _ => trivial).mono fun r w₁ _ hr m l h => ?_
      have := hr _ (Option.some.inj h)
      simp [transition, returns_bind] at this
  kill _ _ _ _ _ _ _ _ _ _ h := by cases h

end Programs

theorem no_live_bet_on_decided_round {c : GameConfig}
    (hσ : ∀ r, Decided r σ → ¬ AnyOn r .reserving σ)
    (h : roundRule.Reaches (system P) (Config.initial σ) c) :
    (∀ later x earlier, c.world.log = later ++ x :: earlier → LiveInTime x earlier) ∧
      ∀ (i n : ℕ) l, c.threads[i]? = some (.live (.ret (.settled n l))) → ¬ AnyOn n .active c.world.state := by
  have hinitial : RoundInv ⟨σ, []⟩ :=
    ⟨trivial, fun r hr => hσ r (by simpa [Closed, Reached] using hr)⟩
  have hgood : c.Good (decidedRounds P) := (Config.good_initial hinitial).reaches decidedRounds_sound h
  exact ⟨fun _ _ _ hlog => hgood.inv.live.split hlog, fun i n l ht => (hgood.ended ht n l rfl).2⟩

section Runs

open Scenario

def aboutToRun : State :=
  { idle .betting with nodes := fun _ => { engine .betting with timer := some (0, .running) } }

def slowDebit : List (Machine.Label Event Oracle) :=
  .env (.call (.placeBet { node := 0, userId := 1, panel := .A, amount := 100 })) :: acts 0 6 ++
    .env (.timer 0) :: acts 1 7 ++ .env (.tick 10000) :: .env (.timer 0) :: acts 2 8 ++
    .env (.tick 2500) :: .env (.timer 0) :: acts 3 8 ++ .env (.onSettle 0 0) :: acts 4 1 ++
    .env (.tick 500) :: .env (.timer 0) :: acts 5 7 ++ acts 0 2

/-- The debit of a bet takes until its round has been completed and settled, and then the bet goes live. -/
theorem live_bet_of_slow_debit : ∃ c : GameConfig,
    Rule.free.Reaches (system (params false false)) (Config.initial aboutToRun) c ∧
      (∃ later x earlier, c.world.log = later ++ x :: earlier ∧ ¬ LiveInTime x earlier) ∧
      c.threads[4]? = some (.live (.ret (.settled 0 []))) ∧ Decided 0 c.world.state ∧
      AnyOn 0 .active c.world.state := by
  have hrun : (system (params false false)).run (Config.initial aboutToRun) slowDebit = some _ := rfl
  refine ⟨_, Rule.reaches_of_run Rule.obeys_free hrun, ⟨[], _, _, rfl, ?_⟩, rfl, rfl, 0, _, rfl, rfl, rfl⟩
  intro h
  exact h 0 _ rfl rfl rfl (.inl rfl)

instance (r : ℕ) (σ : State) : Decidable (Decided r σ) :=
  inferInstanceAs (Decidable ((σ.rounds.row r).any (decidedPhase ·.status) = true))

instance (r : ℕ) (w : GameWorld) : Decidable (Closed r w) :=
  inferInstanceAs (Decidable ((_ ∨ _) ∨ _))

instance (r : ℕ) (st : BetStatus) (σ : State) : Decidable (AnyOn r st σ) :=
  decidable_of_iff (σ.bets.count (fun _ x => x.slot.roundId = r && x.status = st) ≠ 0) <| by
    simp [Data.Table.count_ne_zero, AnyOn]

def aboutToCrash : State :=
  { staked .running .active with
    nodes := fun _ => { engine .running with timer := some (0, .crashed) } }

/-- A round with a live bet crashes, and its settlement busts the bet. -/
theorem bet_busted_in_time : ∃ c : GameConfig,
    statusIn c.world.state 0 = some .busted ∧
    (∀ later x earlier, c.world.log = later ++ x :: earlier → LiveInTime x earlier) ∧
      ∀ (i n : ℕ) l, c.threads[i]? = some (.live (.ret (.settled n l))) → ¬ AnyOn n .active c.world.state := by
  have hrun : (system (params false false)).run (Config.initial aboutToCrash)
      (.env (.timer 0) :: acts 0 8 ++ .env (.tick 2500) :: .env (.timer 0) :: acts 1 8 ++
        .env (.onSettle 0 0) :: acts 2 2) = some _ := rfl
  have hσ (r : ℕ) : Decided r aboutToCrash → ¬ AnyOn r .reserving aboutToCrash := by
    rintro - ⟨b, x, hx, -, hst⟩
    have hnone : aboutToCrash.bets.findMany (fun _ x => x.status = .reserving) = [] := rfl
    exact Data.Table.findMany_eq_nil.1 hnone b x hx (by simpa using hst)
  exact ⟨_, rfl, no_live_bet_on_decided_round hσ (Rule.reaches_of_run (R := roundRule) (by decide) hrun)⟩

end Runs

end VaultRun.Safety.DecidedRounds
