import VaultRun.Game.Lifecycle
import VaultRun.Game.Reversals

/-!
The routines of the engines: which call runs a round loop now, and what the calls around it leave alone.
-/

namespace VaultRun.Game

open VaultRun.Concurrency VaultRun.Data Program GameEngineService WalletRollbackService
  SeamlessOperatorWallet

namespace Stmt

/-- A statement that reads or moves the engine of a node, or moves a round to an open phase. -/
@[reducible] def drives : Stmt → Bool
  | readState _ | setState _ _ | enterPhase _ _ _ | schedule _ _ _ | scheduleCrash _
  | createRound _ _ _ => true
  | updateRound _ d => d.status.any Phase.isOpen
  | _ => false

@[reducible] def node : Stmt → Option ℕ
  | readState n | setState n _ | enterPhase n _ _ | schedule n _ _ | scheduleCrash n | beginStart n
  | stop n | raceWon n | raceLost n | emitSettle n _ | assertStillLeader n | mirror n => some n
  | _ => none

end Stmt

/-- `none` where no engine runs; else the node whose engine has started last, with the call that runs its
loop now, unless a deadline has given that call up. -/
def helmAfter (h : Option (ℕ × Option ℕ)) : GameEntry → Option (ℕ × Option ℕ)
  | .answered i (.beginStart n) r _ _ => if r = .ok true then some (n, some i) else h
  | .answered _ (.stop n) _ _ _ | .moved _ (.leaderLost n) _ _ | .moved _ (.boot n) _ _ =>
      h.filter (·.1 ≠ n)
  | .moved i (.timer n) _ _ => h.map fun h => if h.1 = n then (n, some i) else h
  | .moved _ (.deadline _ j) _ _ => h.map fun h => if h.2 = some j then (h.1, none) else h
  | _ => h

def helm : List GameEntry → Option (ℕ × Option ℕ)
  | [] => none
  | x :: log => helmAfter (helm log) x

/-- Call `i` is the current routine of node `n`. -/
def Steers (n i : ℕ) (log : List GameEntry) : Prop := helm log = some (n, some i)

instance (n i : ℕ) (log : List GameEntry) : Decidable (Steers n i log) :=
  inferInstanceAs (Decidable (_ = _))

def Driven (i : ℕ) (s : Stmt) (log : List GameEntry) : Prop :=
  s.drives → ∃ n, Steers n i log ∧ ∀ m, s.node = some m → m = n

instance (i : ℕ) (s : Stmt) (log : List GameEntry) : Decidable (Driven i s log) :=
  decidable_of_iff (s.drives → (helm log).any fun h => h.2 = some i ∧ s.node.all (· = h.1)) <| by
    refine imp_congr_right fun _ => ?_
    simp only [Option.any_eq_true, Steers, Option.all_eq_true, decide_eq_true_eq, Prod.exists]
    constructor
    · rintro ⟨n, j, h, rfl, hn⟩
      exact ⟨n, h, hn⟩
    · rintro ⟨n, h, hn⟩
      exact ⟨n, some i, h, rfl, hn⟩

def Begun (P : Params) (i : ℕ) (log : List GameEntry) : Prop := ∃ x ∈ log, Starts (system P) i x

variable {P : Params} {C : Contract (system P)} {n i j : ℕ} {w w' : GameWorld} {s : Stmt}
  {r : game.Reply s} {o : Oracle} {σ σ' : State} {log : List GameEntry}

lemma Steers.unique {m k : ℕ} (h : Steers n i log) (h' : Steers m k log) : m = n ∧ k = i := by
  have := h'.symm.trans h
  simpa using this

section Uses

attribute [local simp] Program.await Option.forall except_forall

lemma rollbackOnce_offEngine (s : OperatorSession) (k : Key) (b : ℕ) (reason : Intent)
    (propagate : Bool) (amount : Option ℤ) :
    (rollbackOnce s k b reason propagate amount).Uses fun t : Stmt => t.offEngine := by
  simp [rollbackOnce, claim, bumpAttempts, acquireLease, confirm, recordEmitFailure]

lemma drainPending_offEngine (mode : Bool) (l : ℕ) :
    (drainPending mode l).Uses fun t : Stmt => t.offEngine := by
  have hone (n : ℕ) (x : RollbackRef × WalletRollback) : (drainOne n x).Uses fun t : Stmt => t.offEngine := by
    simp [drainOne, acquireLease, confirm]
  cases mode with
  | false => trivial
  | true => exact uses_compositional.bind (by simp) fun rows => uses_compositional.loop _ hone

lemma gameParts_offEngine : GameParts P fun _ p => p.Uses fun t : Stmt => t.offEngine :=
  gameParts_of_all uses_compositional (fun hp => hp.mono fun _ hs => (Bool.and_eq_true_iff.1 hs).2)
    (fun _ => await_uses rfl) rollbackOnce_offEngine (drainPending_offEngine _)

end Uses

section Helm

variable {x : GameEntry}

/-- A call comes to steer by starting an engine or a transition. -/
lemma Steers.before (h : Steers n i (x :: log)) : Steers n i log ∨
    (∃ b a, x = .answered i (.beginStart n) (.ok true) b a) ∨ ∃ b a, x = .moved i (.timer n) b a := by
  unfold Steers at h
  rw [helm] at h
  cases x with
  | killed j b a => exact .inl h
  | answered j s r b a =>
      cases s with
      | beginStart m =>
          simp only [helmAfter] at h
          split_ifs at h with hr
          · obtain ⟨rfl, rfl⟩ : m = n ∧ j = i := by simpa using h
            exact .inr (.inl ⟨b, a, by rw [hr]⟩)
          · exact .inl h
      | stop m => exact .inl (Option.filter_eq_some_iff.1 h).1
      | _ => exact .inl h
  | moved j e b a =>
      cases e with
      | timer m =>
          obtain ⟨h', hh, heq⟩ := Option.map_eq_some_iff.1 h
          split_ifs at heq with hm
          · obtain ⟨rfl, rfl⟩ : m = n ∧ j = i := by simpa [hm] using heq
            exact .inr (.inr ⟨b, a, rfl⟩)
          · exact .inl (hh.trans (congrArg some heq))
      | deadline m k =>
          obtain ⟨h', hh, heq⟩ := Option.map_eq_some_iff.1 h
          split_ifs at heq
          · cases (Prod.mk.inj heq).2
          · exact .inl (hh.trans (congrArg some heq))
      | leaderLost m | boot m => exact .inl (Option.filter_eq_some_iff.1 h).1
      | _ => exact .inl h

lemma helm_before {c : Option ℕ} (h : helm (x :: log) = some (n, c)) : (∃ c', helm log = some (n, c')) ∨
    ∃ j b a, x = .answered j (.beginStart n) (.ok true) b a := by
  rw [helm] at h
  cases x with
  | killed j b a => exact .inl ⟨c, h⟩
  | answered j s r b a =>
      cases s with
      | beginStart m =>
          simp only [helmAfter] at h
          split_ifs at h with hr
          · obtain ⟨rfl, -⟩ : m = n ∧ some j = c := by simpa using h
            exact .inr ⟨j, b, a, by rw [hr]⟩
          · exact .inl ⟨c, h⟩
      | stop m => exact .inl ⟨c, (Option.filter_eq_some_iff.1 h).1⟩
      | _ => exact .inl ⟨c, h⟩
  | moved j e b a =>
      cases e with
      | timer m =>
          obtain ⟨h', hh, heq⟩ := Option.map_eq_some_iff.1 h
          split_ifs at heq with hm
          · exact .inl ⟨h'.2, by rw [hh, ← (Prod.mk.inj heq).1, ← hm]⟩
          · exact .inl ⟨c, hh.trans (congrArg some heq)⟩
      | deadline m k =>
          obtain ⟨h', hh, heq⟩ := Option.map_eq_some_iff.1 h
          split_ifs at heq
          · exact .inl ⟨h'.2, by rw [hh, ← (Prod.mk.inj heq).1]⟩
          · exact .inl ⟨c, hh.trans (congrArg some heq)⟩
      | leaderLost m | boot m => exact .inl ⟨c, (Option.filter_eq_some_iff.1 h).1⟩
      | _ => exact .inl ⟨c, h⟩

lemma helm_of_drives {b a : State} (hs : s.drives) : helm (.answered i s r b a :: log) = helm log := by
  cases s <;> first | rfl | cases hs

end Helm

section Nodes

inductive NodeChange (P : Params) (σ σ' : State) (i n : ℕ) : Stmt → Prop
  | kept {t : Stmt} (h : σ'.nodes n = σ.nodes n) : NodeChange P σ σ' i n t
  | attached {st : EngineState} (h : σ'.nodes n = { σ.nodes n with state := some st }) :
      NodeChange P σ σ' i n (.setState n st)
  | entered {ph : Phase} {ms : ℕ} {st st' : EngineState} (hst : (σ.nodes n).state = some st)
      (hst' : st' = { st with phase := ph, phaseEndsAt := σ.now + ms
                              startedAt := if ph = .running then some σ.now else st.startedAt })
      (h : σ'.nodes n = { σ.nodes n with state := some st' }) : NodeChange P σ σ' i n (.enterPhase n ph ms)
  | began (hrun : (σ.nodes n).running = false) (h : σ'.nodes n = { σ.nodes n with running := true }) :
      NodeChange P σ σ' i n (.beginStart n)
  | stopped (h : σ'.nodes n = { σ.nodes n with running := false, timer := none }) :
      NodeChange P σ σ' i n (.stop n)
  | armed {ms : ℕ} {ph : Phase} (h : σ'.nodes n = { σ.nodes n with timer := some (σ.now + ms, ph) }) :
      NodeChange P σ σ' i n (.schedule n ms ph)
  | armedCrash (h : σ'.nodes n = { σ.nodes n with
        timer := some (σ.now + (((σ.nodes n).state.map (P.crashDelay ·.crashPoint)).getD 0), .crashed) }) :
      NodeChange P σ σ' i n (.scheduleCrash n)
  | raced (h : σ'.nodes n = { σ.nodes n with racing := (σ.nodes n).racing.filter (·.1 ≠ i) }) :
      NodeChange P σ σ' i n (.raceWon n)
  | failed (hrace : (σ.nodes n).racing.any (·.1 = i)) (h : σ'.nodes n = { σ.nodes n with
        racing := (σ.nodes n).racing.filter (·.1 ≠ i), timer := some (σ.now + 1500, .waiting) }) :
      NodeChange P σ σ' i n (.raceLost n)

lemma perform_of_local (h : exec P o i s σ = some (r, σ')) (hs : s.neverFails) (hv : s.isView = false) :
    perform P i s σ = some (r, σ') := by
  rcases exec_cases h with hp | ⟨hf, -⟩ | ⟨hv', -⟩
  · exact hp
  · rw [hs] at hf
    cases hf
  · rw [hv] at hv'
    cases hv'

@[simp] lemma updateNode_rounds {m : ℕ} {f : Node → Node} : (σ.updateNode m f).rounds = σ.rounds := rfl

@[simp] lemma updateNode_now {m : ℕ} {f : Node → Node} : (σ.updateNode m f).now = σ.now := rfl

@[simp] lemma updateNode_nodes {m : ℕ} {f : Node → Node} :
    (σ.updateNode m f).nodes n = if n = m then f (σ.nodes n) else σ.nodes n := rfl

@[reducible] def Stmt.movesNode : Stmt → Bool
  | setState _ _ | enterPhase _ _ _ | beginStart _ | stop _ | schedule _ _ _ | scheduleCrash _
  | raceWon _ | raceLost _ => true
  | _ => false

attribute [local grind] State.recordLedger State.operatorMove State.operatorRollback State.createRound
  State.createBet State.emitSettle State.setOperatorTx State.endTx State.updateBets
  State.updateRollbacks State.updateRound State.stampCrashed in
lemma perform_nodes (h : perform P i s σ = some (r, σ')) (hs : s.movesNode = false) :
    σ'.nodes = σ.nodes := by
  cases s <;> simp only [perform, Option.some.injEq, Prod.mk.injEq, Stmt.movesNode,
    Bool.true_eq_false] at h hs <;> grind

lemma perform_nodeChange (h : perform P i s σ = some (r, σ')) (n : ℕ) : NodeChange P σ σ' i n s := by
  by_cases hk : σ'.nodes n = σ.nodes n
  · exact .kept hk
  · have hnode {m : ℕ} {f : Node → Node} (hσ : σ' = σ.updateNode m f) :
        n = m ∧ σ'.nodes n = f (σ.nodes n) := by
      subst hσ
      rw [updateNode_nodes] at hk ⊢
      split_ifs at hk ⊢ with hm
      · exact ⟨hm, rfl⟩
      · exact absurd rfl hk
    cases s with
    | setState m st =>
        obtain ⟨rfl, hn⟩ := hnode (Prod.mk.inj (Option.some.inj h)).2.symm
        exact .attached hn
    | enterPhase m ph ms =>
        simp only [perform, State.enterPhase, Option.some.injEq] at h
        split at h
        · exact absurd (congrArg (fun σ => State.nodes σ n) (Prod.mk.inj h).2.symm) hk
        · obtain ⟨rfl, hn⟩ := hnode (Prod.mk.inj h).2.symm
          exact .entered ‹_› rfl hn
    | beginStart m =>
        have hσ : (σ.beginStart m).2 = σ' := (Prod.mk.inj (Option.some.inj h)).2
        unfold State.beginStart at hσ
        split_ifs at hσ with hrun
        · exact absurd (congrArg (fun σ => State.nodes σ n) hσ.symm) hk
        · have hσ : σ.updateNode m ({ · with running := true }) = σ' := hσ
          obtain ⟨rfl, hn⟩ := hnode hσ.symm
          exact .began (by simpa using hrun) hn
    | stop m =>
        obtain ⟨rfl, hn⟩ := hnode (Prod.mk.inj (Option.some.inj h)).2.symm
        exact .stopped hn
    | schedule m ms ph =>
        obtain ⟨rfl, hn⟩ := hnode (Prod.mk.inj (Option.some.inj h)).2.symm
        exact .armed hn
    | scheduleCrash m =>
        obtain ⟨rfl, hn⟩ := hnode (Prod.mk.inj (Option.some.inj h)).2.symm
        exact .armedCrash hn
    | raceWon m =>
        obtain ⟨rfl, hn⟩ := hnode (Prod.mk.inj (Option.some.inj h)).2.symm
        exact .raced hn
    | raceLost m =>
        have hσ : σ.raceLost m i = σ' := (Prod.mk.inj (Option.some.inj h)).2
        unfold State.raceLost at hσ
        split_ifs at hσ with hrace
        · have hn : n = m := by
            by_contra hm
            refine hk ?_
            rw [← hσ]
            simp [State.schedule, hm]
          subst hn
          refine .failed hrace ?_
          rw [← hσ]
          simp [State.schedule]
        · exact absurd (congrArg (fun σ => State.nodes σ n) hσ.symm) hk
    | _ => exact absurd (by rw [perform_nodes h rfl]) hk

lemma exec_nodeChange (h : exec P o i s σ = some (r, σ')) (n : ℕ) : NodeChange P σ σ' i n s := by
  rcases exec_cases h with hp | ⟨-, e, -, rfl | ⟨r', hp⟩⟩ | ⟨-, rfl⟩
  · exact perform_nodeChange hp n
  · exact .kept rfl
  · exact perform_nodeChange hp n
  · exact .kept rfl

lemma exec_timer {t : ℕ × Phase} (h : exec P o i s σ = some (r, σ')) (hs : s.drives = false)
    (ht : (σ'.nodes n).timer = some t) : (σ.nodes n).timer = some t ∨
      s = .raceLost n ∧ (σ.nodes n).racing.any (·.1 = i) ∧ t.2 = .waiting := by
  cases exec_nodeChange h n with
  | kept hk => exact .inl (hk ▸ ht)
  | began _ hk | raced hk => exact .inl (by rwa [hk] at ht)
  | stopped hk =>
      rw [hk] at ht
      cases ht
  | failed hrace hk =>
      rw [hk] at ht
      obtain rfl := Option.some.inj ht
      exact .inr ⟨rfl, hrace, rfl⟩
  | attached | entered | armed | armedCrash => cases hs

lemma exec_nodeState (h : exec P o i s σ = some (r, σ')) (hs : s.drives = false) :
    (σ'.nodes n).state = (σ.nodes n).state := by
  cases exec_nodeChange h n with
  | kept hk | began _ hk | raced hk | stopped hk | failed _ hk => rw [hk]
  | attached | entered | armed | armedCrash => cases hs

inductive NodeMove (σ σ' : State) (k n : ℕ) : Event → Prop
  | kept {e : Event} (h : σ'.nodes n = σ.nodes n) : NodeMove σ σ' k n e
  | fired {due : ℕ} {ph : Phase} {racing : List (ℕ × ℕ)} (htimer : (σ.nodes n).timer = some (due, ph))
      (hdue : due ≤ σ.now) (h : σ'.nodes n = { σ.nodes n with timer := none, racing := racing }) :
      NodeMove σ σ' k n (.timer n)
  | overrun {j : ℕ} (hrace : (σ.nodes n).racing.any (·.1 = j)) (h : σ'.nodes n = { σ.nodes n with
        racing := (σ.nodes n).racing.filter (·.1 ≠ j), timer := some (σ.now + 1500, .waiting) }) :
      NodeMove σ σ' k n (.deadline n j)
  | lost (h : σ'.nodes n = { σ.nodes n with running := false, timer := none }) :
      NodeMove σ σ' k n (.leaderLost n)
  | booted (h : σ'.nodes n = ⟨none, none, false, []⟩) : NodeMove σ σ' k n (.boot n)

lemma environment_nodeMove {e : Event} {k : ℕ} {p : Option (Program game Outcome)}
    (h : environment P e k σ = some (σ', p)) (n : ℕ) : NodeMove σ σ' k n e := by
  by_cases hk : σ'.nodes n = σ.nodes n
  · exact .kept hk
  · have hnode {m : ℕ} {f : Node → Node} (hσ : σ' = σ.updateNode m f) :
        n = m ∧ σ'.nodes n = f (σ.nodes n) := by
      subst hσ
      rw [updateNode_nodes] at hk ⊢
      split_ifs at hk ⊢ with hm
      · exact ⟨hm, rfl⟩
      · exact absurd rfl hk
    cases e with
    | tick ms | call c =>
        obtain ⟨rfl, -⟩ := Prod.mk.inj (Option.some.inj h)
        exact absurd rfl hk
    | onSettle m r =>
        simp only [environment] at h
        split_ifs at h
        obtain ⟨rfl, -⟩ := Prod.mk.inj (Option.some.inj h)
        exact absurd rfl hk
    | timer m =>
        simp only [environment, State.fire] at h
        split at h
        · cases h
        · split_ifs at h with hdue
          · obtain ⟨rfl, hn⟩ := hnode (Prod.mk.inj (Option.some.inj h)).1.symm
            exact .fired ‹_› (not_lt.1 hdue) hn
          · obtain ⟨rfl, hn⟩ := hnode (Prod.mk.inj (Option.some.inj h)).1.symm
            exact .fired ‹_› (not_lt.1 hdue) hn
    | deadline m j =>
        simp only [environment, State.raceLost] at h
        split_ifs at h with hdue hrace
        · obtain ⟨rfl, -⟩ := Prod.mk.inj (Option.some.inj h)
          have hn : n = m := by
            by_contra hm
            refine hk ?_
            simp [State.schedule, hm]
          subst hn
          refine .overrun hrace ?_
          simp [State.schedule]
        · obtain ⟨rfl, -⟩ := Prod.mk.inj (Option.some.inj h)
          exact absurd rfl hk
    | leaderLost m =>
        obtain ⟨rfl, hn⟩ := hnode (Prod.mk.inj (Option.some.inj h)).1.symm
        exact .lost hn
    | boot m =>
        obtain ⟨rfl, hn⟩ := hnode (Prod.mk.inj (Option.some.inj h)).1.symm
        exact .booted hn

lemma exec_nodes (h : exec P o i s σ = some (r, σ')) (hs : s.movesNode = false) : σ'.nodes = σ.nodes := by
  rcases exec_cases h with hp | ⟨-, e, -, rfl | ⟨r', hp⟩⟩ | ⟨-, rfl⟩
  · exact perform_nodes hp hs
  · rfl
  · exact perform_nodes hp hs
  · rfl

lemma exec_createRound {id seed crash ends : ℕ}
    (h : exec P o i (.createRound seed crash ends) σ = some (.ok id, σ')) :
    id = σ.rounds.next ∧
      σ'.rounds.row id = some ⟨seed, crash, .waiting, some ends, none, none, none, σ.now⟩ := by
  have hp : σ.createRound seed crash ends = (.ok id, σ') := Option.some.inj (perform_of_ok h rfl)
  unfold State.createRound at hp
  dsimp only at hp
  split_ifs at hp
  · obtain ⟨hid, rfl⟩ := Prod.mk.inj hp
    obtain rfl := Except.ok.inj hid
    exact ⟨rfl, by simp⟩
  · cases (Prod.mk.inj hp).1

lemma exec_updateRound {k : ℕ} {d : RoundData} {u : Unit}
    (h : exec P o i (.updateRound k d) σ = some (.ok u, σ')) :
    ∃ x, σ.rounds.row k = some x ∧ σ'.rounds.row k = some (d.apply σ.now x) := by
  have hp := perform_of_ok h rfl
  simp only [perform] at hp
  split_ifs at hp with hrow
  · obtain ⟨-, rfl⟩ := Prod.mk.inj (Option.some.inj hp)
    obtain ⟨x, hx⟩ := Option.isSome_iff_exists.1 hrow
    exact ⟨x, hx, by simp [hx]⟩
  · cases (Prod.mk.inj (Option.some.inj hp)).1

lemma exec_enterPhase {ph : Phase} {ms : ℕ} {s : EngineState}
    (h : exec P o i (.enterPhase n ph ms) σ = some (.ok s, σ')) : ∃ st, (σ.nodes n).state = some st ∧
      s = { st with phase := ph, phaseEndsAt := σ.now + ms
                    startedAt := if ph = .running then some σ.now else st.startedAt } ∧
      σ' = σ.updateNode n ({ · with state := some s }) := by
  have hp : σ.enterPhase n ph ms = (.ok s, σ') := Option.some.inj (perform_of_ok h rfl)
  unfold State.enterPhase at hp
  cases hst : (σ.nodes n).state with
  | none =>
      rw [hst] at hp
      cases (Prod.mk.inj hp).1
  | some st =>
      rw [hst] at hp
      obtain ⟨hs, rfl⟩ := Prod.mk.inj hp
      obtain rfl := Except.ok.inj hs
      exact ⟨st, rfl, rfl, rfl⟩

lemma exec_setState {s : EngineState} {r : game.Reply (.setState n s)}
    (h : exec P o i (.setState n s) σ = some (r, σ')) :
    σ' = σ.updateNode n ({ · with state := some s }) :=
  (Prod.mk.inj (Option.some.inj (perform_of_local h rfl rfl))).2.symm

lemma exec_readState {r : game.Reply (.readState n)}
    (h : exec P o i (.readState n) σ = some (r, σ')) :
    r = .ok (σ.nodes n).state ∧ σ' = σ := by
  obtain ⟨hr, hσ⟩ := Prod.mk.inj (Option.some.inj (perform_of_local h rfl rfl))
  exact ⟨hr.symm, hσ.symm⟩

end Nodes

section Aside

@[reducible] def Stmt.stampsStart : Stmt → Bool
  | updateRound _ d => d.startedAt.isSome
  | _ => false

/-- What the others leave alone while a routine drives the engine of node `n`. -/
structure Aside (n : ℕ) (σ σ' : State) : Prop where
  now : σ.now ≤ σ'.now
  state : (σ'.nodes n).state = (σ.nodes n).state
  timer : ∀ t, (σ'.nodes n).timer = some t → (σ.nodes n).timer = some t ∨ t.2 = .waiting
  round : ∀ k, σ'.rounds.row k = σ.rounds.row k ∨ ∃ x x', σ.rounds.row k = some x ∧
    σ'.rounds.row k = some x' ∧ x'.seedId = x.seedId ∧ x'.crashPoint = x.crashPoint ∧
    x'.startedAt = x.startedAt ∧ (x'.status = x.status ∨ x'.status = .completed)

/-- The engines are driven by the current routine, and calls have numbers of their own. -/
structure Steered (C : Contract (system P)) : Prop where
  act : ∀ j o s w, C.rule.act j o s w → Driven j s w.log
  env : ∀ k e w, C.rule.env k e w → ∀ x ∈ w.log, ¬ Starts (system P) k x
  pre : ∀ j s w, C.pre j s w → s.stampsStart → s.drives

/-- A statement that does not drive an engine leaves every engine alone. -/
lemma exec_aside (h : exec P o i s σ = some (r, σ')) (hs : s.drives = false)
    (hstamp : s.stampsStart → s.drives) (n : ℕ) : Aside n σ σ' := by
  refine ⟨(exec_now h).ge, exec_nodeState h hs, fun t ht => ?_, fun k => ?_⟩
  · rcases exec_timer h hs ht with hk | ⟨-, -, hw⟩
    · exact .inl hk
    · exact .inr hw
  · cases exec_roundChange h k with
    | kept hk => exact .inl hk
    | created => cases hs
    | stamped hold hrow => exact .inr ⟨_, _, hold, hrow, rfl, rfl, rfl, .inl rfl⟩
    | @updated d old hold hrow =>
        have hstart : d.startedAt = none := by
          by_contra hne
          rw [hstamp (Option.isSome_iff_ne_none.2 hne)] at hs
          cases hs
        refine .inr ⟨_, _, hold, hrow, rfl, rfl, by simp [RoundData.apply, hstart], ?_⟩
        cases hst : d.status with
        | none => exact .inl (by simp [RoundData.apply, hst])
        | some ph =>
            have hopen : ph.isOpen = false := by simpa [Stmt.drives, hst] using hs
            refine .inr ?_
            cases ph <;> simp_all [RoundData.apply, Phase.isOpen]

lemma environment_aside {e : Event} {k : ℕ} {p : Option (Program game Outcome)}
    (h : environment P e k σ = some (σ', p)) (he : e ≠ .boot n) : Aside n σ σ' := by
  have hnow : σ.now ≤ σ'.now := by
    rcases environment_now h with hn | ⟨ms, -, hn⟩
    · exact hn.ge
    · exact hn ▸ Nat.le_add_right _ _
  have hrounds (k : ℕ) : σ'.rounds.row k = σ.rounds.row k := by rw [(environment_tables h).rounds]
  cases environment_nodeMove h n with
  | kept hk => exact ⟨hnow, by rw [hk], fun t ht => .inl (hk ▸ ht), fun k => .inl (hrounds k)⟩
  | fired _ _ hk | lost hk =>
      refine ⟨hnow, by rw [hk], fun t ht => ?_, fun k => .inl (hrounds k)⟩
      rw [hk] at ht
      cases ht
  | overrun _ hk =>
      refine ⟨hnow, by rw [hk], fun t ht => ?_, fun k => .inl (hrounds k)⟩
      rw [hk] at ht
      exact .inr (Option.some.inj ht ▸ rfl)
  | booted => exact absurd rfl he

variable {e : Event}

lemma Steered.fresh (hC : Steered C) (hb : Begun P i w.log) {k : ℕ} (he : C.rule.env k e w) :
    k ≠ i := by
  rintro rfl
  obtain ⟨x, hx, hs⟩ := hb
  exact hC.env k e w he x hx hs

lemma Steered.disturbs (hC : Steered C) (h : C.Disturbs i w w') (hb : Begun P i w.log)
    (hs : Steers n i w'.log) : Steers n i w.log ∧ Aside n w.state w'.state := by
  rcases h.2.2 with (⟨k, e, a, p, he, hm, rfl⟩ | ⟨k, -, rfl⟩) | ⟨j, s, r, hj, -, hp, o, a, ha, hexec, rfl⟩
  · have hk := hC.fresh hb he
    refine ⟨?_, environment_aside hm ?_⟩
    · rcases hs.before with h' | ⟨b, a', h'⟩ | ⟨b, a', h'⟩
      · exact h'
      · cases h'
      · exact absurd (Entry.moved.inj h').1 hk
    · rintro rfl
      simpa using (Option.filter_eq_some_iff.1 hs).2
  · exact ⟨hs, le_rfl, rfl, fun _ h => .inl h, fun _ => .inl rfl⟩
  · have hbefore : Steers n i w.log := by
      rcases hs.before with h' | ⟨b, a', h'⟩ | ⟨b, a', h'⟩
      · exact h'
      · exact absurd (Entry.answered.inj h').1 hj
      · cases h'
    refine ⟨hbefore, exec_aside hexec ?_ (hC.pre j s w hp) n⟩
    by_contra hd
    obtain ⟨m, hm, -⟩ := hC.act j o s w ha (by simpa using hd)
    exact hj (hbefore.unique hm).2

lemma steers_of_answers (h : C.Answers i s w r w') (hb : ∀ m, s ≠ .beginStart m) (hs : Steers n i w'.log) :
    Steers n i w.log := by
  obtain ⟨o, a, ha, hexec, rfl⟩ := h
  rcases hs.before with h' | ⟨b, a', h'⟩ | ⟨b, a', h'⟩
  · exact h'
  · exact absurd (Entry.answered.inj h').2.1 (hb n)
  · cases h'

lemma Steered.answers (hC : Steered C) (h : C.Answers i s w r w') (hp : C.pre i s w)
    (hd : s.drives = false) : Aside n w.state w'.state := by
  obtain ⟨o, a, ha, hexec, rfl⟩ := h
  exact exec_aside hexec hd (hC.pre i s w hp) n

/-- What holds of the state as long as call `i` is the routine of node `n`. -/
def AtHelm (P : Params) (n i : ℕ) (F : State → Prop) (w : GameWorld) : Prop :=
  Begun P i w.log ∧ ∀ m, Steers m i w.log → m = n ∧ F w.state

variable {F F' : State → Prop}

lemma AtHelm.mono (h : AtHelm P n i F w) (hF : ∀ σ, F σ → F' σ) : AtHelm P n i F' w :=
  ⟨h.1, fun m hm => ⟨(h.2 m hm).1, hF _ (h.2 m hm).2⟩⟩

lemma Steered.stable (hC : Steered C) (hF : ∀ w w', C.Disturbs i w w' → Steers n i w.log →
      Steers n i w'.log → Aside n w.state w'.state → F w.state → F w'.state) :
    C.Stable i (AtHelm P n i F) := by
  intro w w' hd hw
  refine ⟨?_, fun m hm => ?_⟩
  · exact C.stable_log (fun log => Begun P i log)
      (fun x log ⟨y, hy, hs⟩ => ⟨y, List.mem_cons_of_mem x hy, hs⟩) w w' hd hw.1
  · obtain ⟨hs, haside⟩ := hC.disturbs hd hw.1 hm
    obtain ⟨rfl, hF'⟩ := hw.2 m hs
    exact ⟨rfl, hF w w' hd hs hm haside hF'⟩

end Aside

section Running

/-- The engine that has started last is running, and its routine is a call that has been started. -/
structure Reigns (P : Params) (w : GameWorld) : Prop where
  runs : ∀ n c, helm w.log = some (n, c) → (w.state.nodes n).running
  begun : ∀ n i, Steers n i w.log → ∃ x ∈ w.log, (∃ s, x.Issues i s) ∨ Starts (system P) i x

lemma reigns_initial : Reigns P ⟨σ, []⟩ := ⟨nofun, nofun⟩

lemma exec_beginStart (h : exec P o i (.beginStart n) σ = some (.ok true, σ')) :
    (σ.nodes n).running = false ∧ σ' = σ.updateNode n ({ · with running := true }) := by
  have hp := perform_of_local h rfl rfl
  simp only [perform, State.beginStart, Option.some.injEq, Prod.mk.injEq, Except.ok.injEq] at hp
  split_ifs at hp with hrun
  · cases hp.1
  · exact ⟨by simpa using hrun, hp.2.symm⟩

lemma Reigns.answer (h : Reigns P w) (hexec : exec P o i s w.state = some (r, σ')) :
    Reigns P (w.answer i s r σ') := by
  refine ⟨fun m c hm => ?_, fun m k hk => ?_⟩
  · rcases helm_before hm with ⟨c', hc'⟩ | ⟨j, b, a, heq⟩
    · have hrun := h.runs m c' hc'
      rw [World.answer_state]
      cases exec_nodeChange hexec m with
      | stopped => simpa using (Option.filter_eq_some_iff.1 hm).2
      | began _ hk => simp [hk]
      | kept hk | attached hk | entered _ _ hk | armed hk | armedCrash hk | raced hk
      | failed _ hk => simpa [hk] using hrun
    · cases heq
      rw [World.answer_state, (exec_beginStart hexec).2]
      simp
  · rcases hk.before with hk | ⟨b, a, heq⟩ | ⟨b, a, heq⟩
    · obtain ⟨x, hx, hb⟩ := h.begun m k hk
      exact ⟨x, List.mem_cons_of_mem _ hx, hb⟩
    · exact ⟨_, List.mem_cons_self, .inl ⟨_, _, _, _, heq⟩⟩
    · cases heq

lemma starts_of_timer {k : ℕ} {p : Option (Program game Outcome)}
    (h : environment P (.timer n) k σ = some (σ', p)) (hrun : (σ.nodes n).running) :
    Starts (system P) k (.moved k (.timer n) σ σ') := by
  obtain ⟨q, rfl⟩ : ∃ q, p = some q := by
    simp only [environment, State.fire] at h
    split at h
    · cases h
    · split_ifs at h
      exact ⟨_, (Prod.mk.inj (Option.some.inj h)).2.symm⟩
  exact ⟨_, _, _, q, rfl, h⟩

lemma Reigns.moves (h : Reigns P w) (hm : C.Moves w w') : Reigns P w' := by
  rcases hm with ⟨k, e, a, p, -, he, rfl⟩ | ⟨k, -, rfl⟩
  · refine ⟨fun m c hh => ?_, fun m j hj => ?_⟩
    · rcases helm_before hh with ⟨c', hc'⟩ | ⟨j, b, a, heq⟩
      · have hrun := h.runs m c' hc'
        rw [World.move_state]
        cases environment_nodeMove he m with
        | lost | booted => simpa using (Option.filter_eq_some_iff.1 hh).2
        | kept hk | fired _ _ hk | overrun _ hk => simpa [hk] using hrun
      · cases heq
    · rcases hj.before with hj | ⟨b, a, heq⟩ | ⟨b, a, heq⟩
      · obtain ⟨x, hx, hb⟩ := h.begun m j hj
        exact ⟨x, List.mem_cons_of_mem _ hx, hb⟩
      · cases heq
      · cases heq
        rcases helm_before hj with ⟨c', hc'⟩ | ⟨j', b, a, heq⟩
        · exact ⟨_, List.mem_cons_self, .inr (starts_of_timer he (h.runs m c' hc'))⟩
        · cases heq
  · refine ⟨h.runs, fun m j hj => ?_⟩
    obtain ⟨x, hx, hb⟩ := h.begun m j hj
    exact ⟨x, List.mem_cons_of_mem _ hx, hb⟩

lemma Reigns.not_steers (h : Reigns P w) {k : ℕ} (hlog : ∀ x ∈ w.log, ∀ s, ¬ x.Issues k s)
    (hfresh : ∀ x ∈ w.log, ¬ Starts (system P) k x) : ¬ Steers n k w.log := by
  intro hs
  obtain ⟨x, hx, ⟨s, hi⟩ | hb⟩ := h.begun n k hs
  · exact hlog x hx s hi
  · exact hfresh x hx hb

end Running

end VaultRun.Game
