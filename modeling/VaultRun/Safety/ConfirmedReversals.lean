import VaultRun.Game.Reversals
import VaultRun.Game.Scenario

/-!
A confirmed rollback stays confirmed and is not emitted again, as long as an owner does not outlive its
lease: the writes that follow an emission do not look at the row.
-/

namespace VaultRun.Safety.ConfirmedReversals

open VaultRun.Concurrency VaultRun.Game Program

/-- Owners write in time, and nothing is emitted because the store has failed. -/
@[reducible] def timelyRule : GameRule where
  act i _ s w := WritesInTime i w s ∧ (s.emits → ¬ StoreFailed (lastBy i w.log))
  kill _ _ := True
  env _ _ _ := True

def EverConfirmed (ref : RollbackRef) (log : List GameEntry) : Prop := ∃ x ∈ log, Confirmed ref x.before

/-- A row is not taken any more once it has been confirmed. -/
def TakenUnconfirmed (x : GameEntry) (earlier : List GameEntry) : Prop :=
  ∀ ref, JustTaken ref (some x) → ¬ EverConfirmed ref (x :: earlier)

/-- A call that emits a rollback has taken its row just before. -/
def EmittedByTaker (x : GameEntry) (earlier : List GameEntry) : Prop :=
  ∀ i op k b, x.Issues i (Stmt.operatorRollback op k b) →
    ∃ ref, ref.operatorId = op ∧ ref.betId = b ∧ JustTaken ref (lastBy i earlier)

structure ReversalInv (w : GameWorld) : Prop where
  exclusive : ∀ ref, Lease.Exclusive (leaseOf ref w)
  confirmed : ∀ ref, EverConfirmed ref w.log → Confirmed ref w.state
  taken : Throughout TakenUnconfirmed w.log
  emitted : Throughout EmittedByTaker w.log

def confirmedReversals (P : Params) : Contract (system P) where
  rule := timelyRule
  inv := ReversalInv
  stmts := Stmt.OnOutbox
  pre := Informed
  ended _ _ _ := True

variable {P : Params} {i : ℕ} {w w' : GameWorld} {s : Stmt} {r : game.Reply s} {σ : State}

lemma everConfirmed_cons {ref : RollbackRef} {x : GameEntry} {log : List GameEntry} :
    EverConfirmed ref (x :: log) ↔ Confirmed ref x.before ∨ EverConfirmed ref log := by
  simp [EverConfirmed]

/-- A call is told that it may emit by the answer that gives it the row. -/
lemma emittedByTaker {a : State} (hp : Informed i s w)
    (hstore : s.emits → ¬ StoreFailed (lastBy i w.log)) :
    EmittedByTaker (.answered i s r w.state a) w.log := by
  rintro j op k b ⟨r', b', a', h⟩
  obtain ⟨rfl, rfl, -⟩ := Entry.answered.inj h
  obtain ⟨ref, hop, hb, -, htaken | ⟨-, hfailed⟩⟩ := hp.emits op k b rfl
  · exact ⟨ref, hop, hb, htaken⟩
  · exact absurd hfailed (hstore rfl)

lemma confirmedReversals_step (hs : s.OnOutbox) (hi : ReversalInv w) (hp : Informed i s w)
    (ha : (confirmedReversals P).Answers i s w r w') : ReversalInv w' := by
  obtain ⟨o, σ', ⟨htime, hstore⟩, hexec, rfl⟩ := ha
  have hever (ref : RollbackRef) (h : Confirmed ref w.state ∨ EverConfirmed ref w.log) :
      Confirmed ref w.state := h.elim id (hi.confirmed ref)
  constructor
  · exact exclusive_answer hexec hs hp.owed htime hi.exclusive
  · intro ref h
    exact confirmed_answer hexec hs hp.owed htime hi.exclusive (hever ref (everConfirmed_cons.1 h))
  · refine ⟨fun ref htaken h => ?_, hi.taken⟩
    exact not_confirmed_of_taken hexec hs hp.owed htaken (hever ref (everConfirmed_cons.1 h))
  · exact ⟨emittedByTaker hp hstore, hi.emitted⟩

lemma ReversalInv.cons {x : GameEntry} (hi : ReversalInv w) (he : ∀ ref, Lease.Exclusive (leaseOf ref w'))
    (hlog : w'.log = x :: w.log) (hbefore : x.before = w.state)
    (hrows : w'.state.rollbacks = w.state.rollbacks) (hx : ∀ i s, ¬ x.Issues i s) : ReversalInv w' := by
  constructor
  · exact he
  · intro ref h
    rw [hlog, everConfirmed_cons, hbefore] at h
    rw [Confirmed, hrows]
    exact h.elim id (hi.confirmed ref)
  · rw [hlog]
    refine ⟨fun ref htaken => ?_, hi.taken⟩
    cases x with
    | answered j s r b a => exact absurd ⟨r, b, a, rfl⟩ (hx j s)
    | moved n e b a => cases htaken
    | killed n b a => cases htaken
  · rw [hlog]
    exact ⟨fun j op k b h => absurd h (hx _ _), hi.emitted⟩

lemma confirmedReversals_move (hi : ReversalInv w) (hm : (confirmedReversals P).Moves w w') :
    ReversalInv w' := by
  have he (ref : RollbackRef) := exclusive_moves hm (hi.exclusive ref)
  have hrows := (moves_tables hm).rollbacks
  rcases hm with ⟨n, e, a, p, -, -, rfl⟩ | ⟨j, -, rfl⟩
  · exact hi.cons he rfl rfl hrows (by simp [Entry.Issues])
  · exact hi.cons he rfl rfl hrows (by simp [Entry.Issues])

lemma confirmedReversals_sound : (confirmedReversals P).Sound :=
  sound_of_uses parts_onOutbox (fun _ => stable_idle) (fun _ => parts_idle fun _ _ _ h => h)
    (fun _ _ _ _ _ => confirmedReversals_step) (fun _ _ => confirmedReversals_move)
    (fun _ _ _ => foldBy_of_absent)
    (fun _ _ _ _ _ => trivial) fun _ _ _ _ _ _ _ _ => trivial

theorem confirmed_reversal_stays {c : GameConfig}
    (h : timelyRule.Reaches (system P) (Config.initial σ) c) :
    (∀ ref, EverConfirmed ref c.world.log → Confirmed ref c.world.state) ∧
      ∀ later x earlier, c.world.log = later ++ x :: earlier →
        TakenUnconfirmed x earlier ∧ EmittedByTaker x earlier := by
  have hinitial : ReversalInv ⟨σ, []⟩ := by
    constructor
    · exact exclusive_initial σ
    · simp [EverConfirmed]
    · trivial
    · trivial
  have hgood : c.Good (confirmedReversals P) :=
    (Config.good_initial hinitial).reaches confirmedReversals_sound h
  exact ⟨hgood.inv.confirmed, fun _ _ _ hlog =>
    ⟨hgood.inv.taken.split hlog, hgood.inv.emitted.split hlog⟩⟩

section Runs

open Scenario

def lateFailure : List (Machine.Label Event Oracle) :=
  .env (.call (.reconcileVoidingBets 10)) :: acts 0 6 ++
    .env (.tick 60001) :: .env (.call (.drainPending 10)) :: acts 1 6 ++
    .act 0 (.timedOut true) :: acts 0 1 ++ .env (.call (.drainPending 10)) :: acts 2 5

instance (ref : RollbackRef) (log : List GameEntry) : Decidable (EverConfirmed ref log) :=
  inferInstanceAs (Decidable (∃ x ∈ log, Confirmed ref x.before))

/-- A void takes the row and hangs in its call to the operator until a drain has taken the row over and
confirmed it; then the late failure makes the row pending again, and the next drain emits again. -/
theorem confirmed_reversal_reopened : ∃ c : GameConfig,
    Rule.free.Reaches (system (params true false)) (Config.initial owing) c ∧
      EverConfirmed refundRef c.world.log ∧ ¬ Confirmed refundRef c.world.state ∧
      ∃ before after earlier, c.world.log =
          .answered 2 (Stmt.operatorRollback 1 (.debit slot) 0) (.ok ()) before after :: earlier ∧
        EverConfirmed refundRef earlier := by
  have hrun : (system (params true false)).run (Config.initial owing) lateFailure = some _ := rfl
  refine ⟨_, Rule.reaches_of_run Rule.obeys_free hrun, ?_, ?_, _, _, _, rfl, ?_⟩
  · decide
  · decide
  · decide

instance : DecidablePred StoreFailed
  | some (.answered _ s (.error e) _ _) => inferInstanceAs (Decidable (s.asksStore ∧ e ≠ .p2002))
  | some (.answered _ _ (.ok _) _ _) => .isFalse id
  | some (.moved ..) | some (.killed ..) | none => .isFalse id

/-- The operator refuses the rollback of a void in time, and accepts that of the drain after it. -/
theorem reversal_confirmed_by_drain : ∃ c : GameConfig, Confirmed refundRef c.world.state ∧
    (∀ ref, EverConfirmed ref c.world.log → Confirmed ref c.world.state) ∧
      ∀ later x earlier, c.world.log = later ++ x :: earlier →
        TakenUnconfirmed x earlier ∧ EmittedByTaker x earlier := by
  have hrun : (system (params true false)).run (Config.initial owing)
      (.env (.call (.reconcileVoidingBets 10)) :: acts 0 6 ++ .act 0 (.timedOut false) :: acts 0 1 ++
        .env (.call (.drainPending 10)) :: acts 1 6 ++ [.env (.tick 1)]) = some _ := rfl
  exact ⟨_, by decide, confirmed_reversal_stays
    (Rule.reaches_of_run (R := timelyRule) (by decide) hrun)⟩

end Runs

end VaultRun.Safety.ConfirmedReversals
