import VaultRun.Safety.RoundSteps
import VaultRun.Safety.SeedReveal

/-!
A round is settled after its crash: `settleRound` busts no bet of a round that has not been running and crashed,
where the engines are conducted by their current routines.
-/

namespace VaultRun.Safety.CrashedRounds

open VaultRun.Concurrency VaultRun.Data VaultRun.Game VaultRun.Safety.RoundSteps Program

/-- The round was persisted as running and then as crashed, or it was found so in the database. -/
def RanThenCrashed (σ₀ : State) (log : List GameEntry) (k : ℕ) : Prop :=
  (∃ a ∈ [Phase.crashed, .settling], status σ₀ k = some a) ∨
    ∃ x ∈ log, status x.before k = some .running ∧ status x.after k = some .crashed

/-- The bets that a settlement busts are those of a round that has been running and has crashed. -/
def BustsCrashed (σ₀ : State) (x : GameEntry) (earlier : List GameEntry) : Prop :=
  ∀ i n k b a, .moved i (.onSettle n k) b a ∈ earlier → ∀ s, x.Issues i s → ∀ id y y',
    x.before.bets.row id = some y → x.after.bets.row id = some y' → y.status ≠ .busted → y'.status = .busted →
      RanThenCrashed σ₀ earlier y.slot.roundId

structure OverInv (σ₀ : State) (args : ℕ → Event) (w : GameWorld) : Prop where
  crashed : ∀ k, ∀ a ∈ [Phase.crashed, .settling], status w.state k = some a → RanThenCrashed σ₀ w.log k
  stale : ∀ i, Recovers i w.log → ∀ c ∈ (notesOf i w.log).stale, c.2.status.hasRun → RanThenCrashed σ₀ w.log c.1
  settles : ∀ n k, (n, k) ∈ w.state.settles → RanThenCrashed σ₀ w.log k
  picked : ∀ i n k b a, .moved i (.onSettle n k) b a ∈ w.log →
    args i = .onSettle n k ∧ RanThenCrashed σ₀ w.log k
  busts : Throughout (BustsCrashed σ₀) w.log

variable {P : Params} {args : ℕ → Event} {σ₀ σ σ' : State} {w w' : GameWorld} {i n k : ℕ} {s : Stmt}
  {r : game.Reply s} {o : Oracle} {log : List GameEntry} {x : GameEntry}

lemma RanThenCrashed.later (h : RanThenCrashed σ₀ log k) : RanThenCrashed σ₀ (x :: log) k :=
  h.imp_right fun ⟨y, hy, hst⟩ => ⟨y, List.mem_cons_of_mem _ hy, hst⟩

lemma status_of_row {y : Round} (h : σ.rounds.row k = some y) : status σ k = some y.status := by
  rw [status, h]
  rfl

section Exec

variable (h : exec P o i s σ = some (r, σ'))
include h

attribute [local grind] State.recordLedger State.operatorMove State.operatorRollback State.createRound
  State.createBet State.updateNode State.setOperatorTx State.endTx State.updateBets State.updateRollbacks
  State.updateRound State.stampCrashed State.schedule State.raceLost State.enterPhase State.beginStart
  State.stop in
lemma exec_settles (hs : ∀ m q, s ≠ .emitSettle m q) : σ'.settles = σ.settles := by
  refine exec_frame h fun r σ' hp => ?_
  cases s <;> simp only [perform, Option.some.injEq, Prod.mk.injEq] at hp <;> grind

end Exec

section Environment

variable {e : Event} {j : ℕ} {p : Option (Program game Outcome)} (h : environment P e j σ = some (σ', p))
include h

lemma environment_settles (hk : (n, k) ∈ σ'.settles) : (n, k) ∈ σ.settles := by
  cases e with
  | timer node =>
      simp only [environment, State.fire] at h
      split at h
      · cases h
      · split_ifs at h <;> obtain ⟨rfl, -⟩ := Prod.mk.inj (Option.some.inj h)
        · exact hk
        · exact hk
  | deadline node j =>
      simp only [environment, State.raceLost, State.schedule] at h
      split_ifs at h <;> obtain ⟨rfl, -⟩ := Prod.mk.inj (Option.some.inj h)
      · exact hk
      · exact hk
  | onSettle node roundId =>
      simp only [environment] at h
      split_ifs at h
      obtain ⟨rfl, -⟩ := Prod.mk.inj (Option.some.inj h)
      exact List.mem_of_mem_erase hk
  | tick ms | call c | leaderLost node | boot node =>
      obtain ⟨rfl, -⟩ := Prod.mk.inj (Option.some.inj h)
      exact hk

omit h in
lemma environment_picked (h : environment P (.onSettle n k) j σ = some (σ', p)) :
    (n, k) ∈ σ.settles ∧ ∃ q, p = some q := by
  simp only [environment] at h
  split_ifs at h with hk
  exact ⟨hk, _, (Prod.mk.inj (Option.some.inj h)).2.symm⟩

end Environment

section Step

variable (hi : OverInv σ₀ args w) (hsteps : StepInv P args w) (hp : (roundSteps P args).pre i s w)
  (hr : (roundSteps P args).rule.act i o s w) (hexec : exec P o i s w.state = some (r, σ'))

include hi hsteps hp hr hexec in
/-- A round gets to `crashed` from `running`, and to `settling` from `crashed`. -/
lemma crashed_step {a : Phase} (ha : a ∈ [Phase.crashed, .settling]) (hst : status σ' k = some a) :
    RanThenCrashed σ₀ (w.answer i s r σ').log k := by
  rcases advance_step hsteps hp.1 hr hexec k with hadv | ⟨hclosed, -⟩
  · have hadv : Advance (status w.state k) (status σ' k) := hadv
    rw [hst] at hadv
    generalize hold : status w.state k = old at hadv
    cases hadv with
    | kept => exact (hi.crashed k a ha hold).later
    | opened => simp at ha
    | @stepped b _ hnext =>
        cases b with
        | running => exact .inr ⟨_, List.mem_cons_self, hold, by cases hnext; exact hst⟩
        | crashed => exact (hi.crashed k _ (by simp) hold).later
        | waiting | betting | settling | completed => cases hnext <;> simp at ha
  · cases hst.symm.trans hclosed
    simp at ha

include hi hr hexec in
/-- A round that a start has found besides the newest, and past its start, is not running. -/
lemma stale_step (j : ℕ) (hj : Recovers j (w.answer i s r σ').log) {c : ℕ × Round}
    (hc : c ∈ (notesOf j (w.answer i s r σ').log).stale) (hrun : c.2.status.hasRun) :
    RanThenCrashed σ₀ (w.answer i s r σ').log c.1 := by
  have hstart : Recovers j w.log := by
    obtain ⟨x, hx, hrec⟩ := hj
    rcases List.mem_cons.1 hx with rfl | hx
    · cases hrec
    · exact ⟨x, hx, hrec⟩
  have hold (hc : c ∈ (notesOf j w.log).stale) : RanThenCrashed σ₀ (w.answer i s r σ').log c.1 :=
    (hi.stale j hstart c hc hrun).later
  by_cases hij : i = j
  · subst hij
    rw [notesOf, World.answer_log, foldBy_self] at hc
    cases s with
    | findOpenRounds =>
        cases r with
        | error e => exact hold hc
        | ok rounds =>
            rcases List.mem_append.1 hc with hc | hc
            · obtain ⟨rfl, rfl⟩ := exec_findOpenRounds hexec
              have hnot : c.2.status ≠ .running := by
                simpa using List.all_eq_true.1 (of_decide_eq_true hr.1.1.2 hstart) c hc
              obtain ⟨hrow, -⟩ := mem_openRounds.1 (List.mem_of_mem_tail hc)
              refine (hi.crashed c.1 c.2.status ?_ (status_of_row hrow)).later
              cases hphase : c.2.status <;> simp_all
            · exact hold hc
    | enterPhase => cases r <;> exact hold hc
    | _ => exact hold hc
  · rw [notesOf, World.answer_log, foldBy_answered hij] at hc
    exact hold hc

include hi hp hr hexec in
lemma settles_step (hk : (n, k) ∈ σ'.settles) : RanThenCrashed σ₀ (w.answer i s r σ').log k := by
  by_cases hs : ∃ m q, s = .emitSettle m q
  · obtain ⟨m, q, rfl⟩ := hs
    have hσ : w.state.emitSettle m q = σ' := by
      have h := perform_of_local hexec rfl rfl
      exact (Prod.mk.inj (Option.some.inj h)).2
    subst hσ
    cases q with
    | some q =>
        rcases List.mem_cons.1 hk with heq | hk
        · obtain ⟨rfl, rfl⟩ := Prod.mk.inj heq
          obtain ⟨⟨l, hl⟩, y, hy, hrun⟩ := hr.2.names _ _ rfl
          obtain ⟨x, hx, hbegins⟩ := hr.1.2
          exact (hi.stale i (recovers_of_begins hl hx hbegins) _ hy hrun).later
        · exact (hi.settles n k hk).later
    | none =>
        obtain ⟨st, hst, hphase⟩ := hp.2 m rfl (of_decide_eq_true hr.1.1.2)
        simp only [State.emitSettle, hst, Option.map_some, Option.none_or] at hk
        rcases List.mem_cons.1 hk with heq | hk
        · obtain ⟨rfl, rfl⟩ := Prod.mk.inj heq
          exact (hi.crashed _ _ (by simp) hphase).later
        · exact (hi.settles n k hk).later
  · rw [exec_settles hexec fun m q h => hs ⟨m, q, h⟩] at hk
    exact (hi.settles n k hk).later

include hi hr hexec in
lemma busts_step : BustsCrashed σ₀ (.answered i s r w.state σ') w.log := by
  rintro j n k b a hpicked s' ⟨r', b', a', hx⟩ id y y' hy hy' hne hbusted
  obtain ⟨rfl, rfl, -, -, -⟩ := Entry.answered.inj hx
  obtain ⟨hargs, hover⟩ := hi.picked i n k b a hpicked
  have hrow : σ'.bets.row id ≠ w.state.bets.row id := by
    intro heq
    obtain rfl := Option.some.inj (hy'.symm.trans (heq.trans hy))
    exact hne hbusted
  have hwrites : s.writesBets := by
    by_contra hw
    exact hrow (by rw [exec_bets hexec (by simpa using hw)])
  obtain ⟨v, d, rfl, hv⟩ := hr.2.settles n k hargs hwrites
  cases exec_betChange hexec id with
  | kept hk => exact absurd hk hrow
  | @updated _ _ old hold hw _ =>
      obtain rfl := Option.some.inj (hy.symm.trans hold)
      obtain rfl : k = y.slot.roundId := by
        simp only [BetWhere.holds, Bool.and_eq_true, hv, Option.all_some, decide_eq_true_eq] at hw
        exact hw.1.1.1.1.1.2
      exact hover

lemma over_step (hi : OverInv σ₀ args w) (hr : (roundSteps P args).known.act i o s w)
    (hexec : exec P o i s w.state = some (r, σ')) : OverInv σ₀ args (w.answer i s r σ') := by
  obtain ⟨hr, hsteps, hp⟩ := hr
  refine ⟨fun k a ha => crashed_step hi hsteps hp hr hexec ha, fun j hj c => stale_step hi hr hexec j hj,
    fun n k => settles_step hi hp hr hexec, fun j n k b a hmem => ?_, busts_step hi hr hexec, hi.busts⟩
  rcases List.mem_cons.1 hmem with h | h
  · cases h
  · obtain ⟨hargs, hover⟩ := hi.picked j n k b a h
    exact ⟨hargs, hover.later⟩

lemma over_move {e : Event} {a : State} {p : Option (Program game Outcome)} (hi : OverInv σ₀ args w)
    (hr : (roundSteps P args).known.env i e w) (he : environment P e i w.state = some (a, p)) :
    OverInv σ₀ args (w.move i e a) := by
  have hrounds : a.rounds = w.state.rounds := (environment_tables he).rounds
  have hstatus (k : ℕ) : status a k = status w.state k := by rw [status, hrounds, status]
  refine ⟨fun k b hb hst => (hi.crashed k b hb ((hstatus k).symm.trans hst)).later, fun j hj c hc hrun => ?_,
    fun n k hk => (hi.settles n k (environment_settles he hk)).later, fun j n k b c hmem => ?_, ?_, hi.busts⟩
  · by_cases hij : i = j
    · subst hij
      rw [notesOf, World.move_log, foldBy_moved, foldBy_of_absent hr.1.1.2] at hc
      cases hc
    · refine (hi.stale j ?_ c hc hrun).later
      obtain ⟨x, hx, hrec⟩ := hj
      rcases List.mem_cons.1 hx with rfl | hx
      · unfold recovers at hrec
        split at hrec <;> simp_all
      · exact ⟨x, hx, hrec⟩
  · rcases List.mem_cons.1 hmem with h | h
    · obtain ⟨rfl, rfl, -, -⟩ := Entry.moved.inj h
      obtain ⟨hk, q, rfl⟩ := environment_picked he
      exact ⟨(hr.1.1.1.2 _ _ he).symm, (hi.settles n k hk).later⟩
    · obtain ⟨hargs, hover⟩ := hi.picked j n k b c h
      exact ⟨hargs, hover.later⟩
  · rintro j n k b c - s ⟨r, b', c', hx⟩
    cases hx

lemma over_kill (hi : OverInv σ₀ args w) : OverInv σ₀ args (w.kill i (w.state.abort i)) := by
  refine ⟨fun k b hb hst => (hi.crashed k b hb hst).later, fun j hj c hc hrun => ?_,
    fun n k hk => (hi.settles n k hk).later, fun j n k b c hmem => ?_, ?_, hi.busts⟩
  · obtain ⟨x, hx, hrec⟩ := hj
    rcases List.mem_cons.1 hx with rfl | hx
    · cases hrec
    · exact (hi.stale j ⟨x, hx, hrec⟩ c hc hrun).later
  · rcases List.mem_cons.1 hmem with h | h
    · cases h
    · obtain ⟨hargs, hover⟩ := hi.picked j n k b c h
      exact ⟨hargs, hover.later⟩
  · rintro j n k b c - s ⟨r, b', c', hx⟩
    cases hx

end Step

/-- A round moves one phase at a time, but for the rounds that the recovery of a start completes, and
`settleRound` busts the bets of a round only after it has been running and has crashed. The engines start with
no timer armed but that of a new round. -/
theorem rounds_step_forward {c : GameConfig} (hcalm : ∀ n, (σ.nodes n).running = false → Calm n σ)
    (hsettles : σ.settles = []) (h : conducted.Reaches (system P) (Config.initial σ) c)
    {later earlier : List GameEntry} {x : GameEntry} (hlog : c.world.log = later ++ x :: earlier) :
    Stepwise x earlier ∧ BustsCrashed σ x earlier := by
  obtain ⟨args, -, hgiven⟩ := h.given
  have hrule : (roundSteps P args).rule.Reaches (system P) (Config.initial σ) c :=
    ((hgiven args fun _ _ => rfl).following fun n e w a p hr he =>
      environment_orders (hr.2 a p he).symm he _).unissued.1.started.1
  have hinitial : StepInv P args ⟨σ, []⟩ := ⟨reigns_initial, nofun, hcalm, nofun, nofun, trivial⟩
  have hgood : (Config.initial σ : GameConfig).Good (roundSteps P args) := Config.good_initial hinitial
  have hover : OverInv σ args ⟨σ, []⟩ := by
    refine ⟨fun k a ha hst => .inl ⟨a, ha, hst⟩, fun j hj => ?_, fun n k hk => ?_, nofun, trivial⟩
    · obtain ⟨x, hx, -⟩ := hj
      cases hx
    · rw [show State.settles _ = [] from hsettles] at hk
      cases hk
  have hinv : OverInv σ args c.world := (roundSteps_sound.known hgood hrule).keeps hover
    (fun _ _ _ _ _ _ => over_step) (fun _ _ _ _ _ => over_move) fun _ _ hi _ => over_kill hi
  exact ⟨(hgood.reaches roundSteps_sound hrule).inv.steps.split hlog, hinv.busts.split hlog⟩

section Runs

open Scenario
open SeedReveal (booted resumed hungCrash)

/-- The crash of a given-up transition moves the round that has been opened since from `waiting` to `crashed`. -/
theorem late_crash_skips_phases : ∃ c : GameConfig, booted.settles = [] ∧
    (∀ n, Calm n booted) ∧ Rule.free.Reaches (system (params false false)) (Config.initial booted) c ∧
      ∃ later x earlier, c.world.log = later ++ x :: earlier ∧ status x.before 1 = some .waiting ∧
        status x.after 1 = some .crashed ∧ ¬ Stepwise x earlier := by
  have hrun : (system (params false false)).run (Config.initial booted) hungCrash = some _ := rfl
  have hskips {x : GameEntry} {earlier : List GameEntry} (hb : status x.before 1 = some .waiting)
      (ha : status x.after 1 = some .crashed) : ¬ Stepwise x earlier := by
    intro h
    rcases h 1 with hadv | ⟨hclosed, -⟩
    · rw [hb, ha] at hadv
      cases hadv with
      | stepped hnext => cases hnext
    · cases ha.symm.trans hclosed
  refine ⟨_, rfl, fun _ => nofun, Rule.reaches_of_run Rule.obeys_free hrun, [_], _, _, rfl, rfl, rfl,
    hskips rfl rfl⟩

lemma no_round : (∅ : Records Round Round.seedId).findUnique
    { Scenario.round .running with startedAt := some 0 }.seedId = none := rfl

/-- Bet 0 is active on round 0, which is running since time 0, and the engine has just booted. -/
def wagered : State :=
  { staked .running .active with
    rounds := (∅ : Records Round Round.seedId).create { Scenario.round .running with startedAt := some 0 } no_round
    nodes := fun _ => ⟨none, none, false, []⟩ }

lemma calm_wagered (n : ℕ) : Calm n wagered := nofun

/-- The engine resumes round 0, which crashes, and the gateway settles it: bet 0 is busted. -/
theorem settled_after_crash : ∃ c : GameConfig,
    (∀ later x earlier, c.world.log = later ++ x :: earlier → Stepwise x earlier ∧ BustsCrashed wagered x earlier) ∧
      (c.world.state.bets.row 0).map (·.status) = some .busted := by
  have hrun : (system (params false false)).run (Config.initial wagered) (resumed ++ acts 1 8 ++
    [.env (.tick 5000), .env (.timer 0)] ++ acts 2 8 ++ [.env (.onSettle 0 0), act 3, act 3]) = some _ := rfl
  exact ⟨_, fun later x earlier => rounds_step_forward (fun n _ => calm_wagered n) rfl
    (Rule.reaches_of_run (R := conducted) (by decide) hrun), rfl⟩

end Runs

end VaultRun.Safety.CrashedRounds
