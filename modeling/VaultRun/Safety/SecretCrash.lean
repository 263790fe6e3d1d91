import VaultRun.Game.Helm
import VaultRun.Game.Scenario
import VaultRun.Public.Outputs
import VaultRun.Safety.ProvableRounds

/-!
The crash point stays secret until the crash: two deployments that differ in the crash points of rounds that
have not crashed and in seeds still to come cannot be told apart, where no engine settles a round before its
crash is recorded.
-/

namespace VaultRun.Safety.SecretCrash

open VaultRun.Concurrency VaultRun.Data VaultRun.Game

def Stamped (k : ℕ) (σ : State) : Prop := ∃ x, σ.rounds.row k = some x ∧ x.crashedAt.isSome

/-- A round that has crashed: in its row, or on an engine that has just entered its crash. -/
def Crashed (k : ℕ) (σ : State) : Prop :=
  Stamped k σ ∨ ∃ n s, (σ.nodes n).state = some s ∧ s.roundId = k ∧ s.phase = .crashed

@[reducible] def late (ph : Phase) : Bool := ph = .settling ∨ ph = .completed

@[reducible] def entersLate : Stmt → Option ℕ
  | .enterPhase n ph _ => if late ph then some n else none
  | _ => none

/-- No engine settles or completes a round whose crash is not in its row. -/
@[reducible] def afterCrash : GameRule where
  act _ _ s w := ∀ n ∈ entersLate s, ∀ st ∈ (w.state.nodes n).state, Stamped st.roundId w.state
  kill _ _ := True
  env _ _ _ := True

section Engines

structure EngineInv (σ : State) : Prop where
  settling : ∀ k x, σ.rounds.row k = some x → x.status = .settling → x.crashedAt.isSome
  engine : ∀ n st, (σ.nodes n).state = some st → late st.phase → Stamped st.roundId σ

def Promised (σ : State) : Stmt → Prop
  | .setState _ st => late st.phase → Stamped st.roundId σ
  | .updateRound k d => d.status = some .settling → Stamped k σ
  | _ => True

@[reducible] def promises : Stmt → Bool
  | .setState _ _ => true
  | .updateRound _ d => d.status = some .settling
  | _ => false

def recorded (P : Params) : Contract (system P) where
  rule := afterCrash
  inv w := EngineInv w.state
  stmts _ := True
  pre _ s w := Promised w.state s
  ended _ _ _ := True

variable {P : Params} {σ σ' : State} {w w' : GameWorld} {i n k : ℕ} {s : Stmt} {r : game.Reply s} {o : Oracle}
  {p : Point}

lemma Stamped.exec (h : Stamped k σ) (hexec : exec P o i s σ = some (r, σ')) : Stamped k σ' := by
  obtain ⟨x, hx, hc⟩ := h
  cases exec_roundChange hexec k with
  | kept hk => exact ⟨x, hk.trans hx, hc⟩
  | created hk =>
      rw [hk, σ.rounds.row_next] at hx
      cases hx
  | updated hold hrow =>
      obtain rfl := Option.some.inj (hold.symm.trans hx)
      refine ⟨_, hrow, ?_⟩
      simp only [RoundData.apply]
      split_ifs
      · rfl
      · exact hc
  | stamped hold hrow => exact ⟨_, hrow, rfl⟩

lemma Stamped.moves {C : Contract (system P)} (h : Stamped k w.state) (hm : C.Moves w w') :
    Stamped k w'.state := by
  unfold Stamped
  rwa [(moves_tables hm).rounds]

lemma promised_of_not (h : promises s = false) : Promised σ s := by
  cases s with
  | setState => cases h
  | updateRound k d => exact fun hd => absurd hd (by simpa using h)
  | _ => trivial

lemma settling_step (hi : EngineInv w.state) (hp : Promised w.state s)
    (hexec : exec P o i s w.state = some (r, σ')) {x : Round} (hx : σ'.rounds.row k = some x)
    (hst : x.status = .settling) : x.crashedAt.isSome := by
  have hstamped (h : Stamped k w.state) : x.crashedAt.isSome := by
    obtain ⟨y, hy, hc⟩ := h.exec hexec
    obtain rfl := Option.some.inj (hy.symm.trans hx)
    exact hc
  cases exec_roundChange hexec k with
  | kept hk => exact hi.settling k x (hk ▸ hx) hst
  | created _ hrow =>
      obtain rfl := Option.some.inj (hrow.symm.trans hx)
      cases hst
  | @updated d old hold hrow =>
      obtain rfl := Option.some.inj (hrow.symm.trans hx)
      cases hd : d.status with
      | none => exact hstamped ⟨old, hold, hi.settling k old hold (by simpa [RoundData.apply, hd] using hst)⟩
      | some ph =>
          obtain rfl : ph = .settling := by simpa [RoundData.apply, hd] using hst
          exact hstamped (hp hd)
  | stamped hold hrow =>
      obtain rfl := Option.some.inj (hrow.symm.trans hx)
      rfl

lemma engine_step (hi : EngineInv w.state) (hp : Promised w.state s) (hr : afterCrash.act i o s w)
    (hexec : exec P o i s w.state = some (r, σ')) {st : EngineState} (hst : (σ'.nodes n).state = some st)
    (hlate : late st.phase) : Stamped st.roundId σ' := by
  have hold (h : (σ'.nodes n).state = (w.state.nodes n).state) : Stamped st.roundId σ' :=
    (hi.engine n st (h ▸ hst) hlate).exec hexec
  cases exec_nodeChange hexec n with
  | kept h | began _ h | stopped h | armed h | armedCrash h | raced h | failed _ h => exact hold (by rw [h])
  | attached h =>
      rw [h] at hst
      obtain rfl := Option.some.inj hst
      exact Stamped.exec (hp hlate) hexec
  | @entered ph ms cur cur' hcur hcur' h =>
      rw [h] at hst
      obtain rfl := Option.some.inj hst
      subst hcur'
      exact Stamped.exec (hr n (if_pos hlate) cur hcur) hexec

lemma EngineInv.step (hi : EngineInv w.state) (hp : Promised w.state s)
    (ha : (recorded P).Answers i s w r w') : EngineInv w'.state := by
  obtain ⟨o, σ', hr, hexec, rfl⟩ := ha
  exact ⟨fun _ _ => settling_step hi hp hexec, fun _ _ => engine_step hi hp hr hexec⟩

lemma EngineInv.moves (hi : EngineInv w.state) (hm : (recorded P).Moves w w') : EngineInv w'.state := by
  refine ⟨fun k x hx => ?_, fun n st hst hlate => ?_⟩
  · rw [(moves_tables hm).rounds] at hx
    exact hi.settling k x hx
  · refine Stamped.moves ?_ hm
    rcases hm with ⟨j, e, a, q, -, he, rfl⟩ | ⟨j, -, rfl⟩
    · change (a.nodes n).state = some st at hst
      cases environment_nodeMove he n with
      | kept h | fired _ _ h | overrun _ h | lost h =>
          rw [h] at hst
          exact hi.engine n st hst hlate
      | booted h =>
          rw [h] at hst
          cases hst
    · exact hi.engine n st hst hlate

def Knows (σ : State) : Point → Prop
  | .created st => st.phase = .waiting
  | .entered ph st => late ph → Stamped st.roundId σ
  | .found c | .dated c _ | .resumed c _ => late c.2.status → Stamped c.1 σ
  | _ => True

lemma Knows.mono (h : Knows σ p) (hst : ∀ k, Stamped k σ → Stamped k σ') : Knows σ' p := by
  cases p with
  | created => exact h
  | entered | found | dated | resumed => exact fun hlate => hst _ (h hlate)
  | _ => trivial

lemma stable_knows : (recorded P).Stable i fun w => Knows w.state p := by
  rintro w w' ⟨-, -, hm | ⟨j, s, r, -, -, -, ⟨o, a, -, hexec, rfl⟩⟩⟩ h
  · exact h.mono fun k hk => hk.moves hm
  · exact h.mono fun k hk => hk.exec hexec

lemma leads {q : s.Result → Point} (hp : ∀ σ, Knows σ p → Promised σ s)
    (hk : ∀ o w σ' a, EngineInv w.state → afterCrash.act i o s w → exec P o i s w.state = some (.ok a, σ') →
      Knows w.state p → Knows σ' (q a)) :
    (recorded P).Leads i s (fun w => Knows w.state p) (fun w => Knows w.state .done)
      fun a w => Knows w.state (q a) := by
  refine fun w hi hw => ⟨hp _ hw, fun r w' ha hi' => ⟨trivial, ?_⟩⟩
  rintro a rfl
  obtain ⟨o, σ', hr, hexec, rfl⟩ := ha
  exact hk o w σ' a hi hr hexec hw

lemma leads_same (hp : promises s = false) :
    (recorded P).Leads i s (fun w => Knows w.state p) (fun w => Knows w.state p) fun _ w => Knows w.state p := by
  refine fun w hi hw => ⟨promised_of_not hp, fun r w' ha hi' => ?_⟩
  obtain ⟨o, σ', hr, hexec, rfl⟩ := ha
  have hkept : Knows σ' p := hw.mono fun k hk => hk.exec hexec
  exact ⟨hkept, fun _ _ => hkept⟩

lemma leads_done (hp : promises s = false) {q : s.Result → Point} (hk : ∀ σ a, Knows σ (q a)) :
    (recorded P).Leads i s (fun w => Knows w.state p) (fun w => Knows w.state .done)
      fun a w => Knows w.state (q a) :=
  leads (fun _ _ => promised_of_not hp) fun _ _ _ _ _ _ _ _ => hk _ _

lemma promised_of_entered {ph : Phase} {st : EngineState} (h : Knows σ (.entered ph st)) :
    Promised σ (.updateRound st.roundId (ph.data st)) := by
  intro hd
  cases ph with
  | settling => exact h rfl
  | _ => cases hd

lemma course (n i : ℕ) : Course (recorded P) n i fun p w => Knows w.state p where
  stable _ := stable_knows
  done _ _ _ := trivial
  looks p s hs _ := leads_same (by cases s <;> simp_all)
  reads ph := leads_done (q := fun _ => .enter ph) rfl fun _ _ => trivial
  stop := leads_done (q := fun _ => .done) rfl fun _ _ => trivial
  lost := leads_done (q := fun _ => .done) rfl fun _ _ => trivial
  retry := leads_done (q := fun _ => .done) rfl fun _ _ => trivial
  created _ _ _ := leads_done rfl fun _ _ => rfl
  opened st := leads (q := fun _ => .written .waiting st) (fun σ h hl => by simp_all [Knows])
    fun _ _ _ _ _ _ _ _ => trivial
  entered ph ms _ := leads (fun _ _ => trivial) fun o w σ' st _ hr hexec _ hlate => by
    obtain ⟨cur, hcur, rfl, -⟩ := exec_enterPhase hexec
    exact Stamped.exec (hr n (if_pos hlate) cur hcur) hexec
  written ph st _ := leads (q := fun _ => .written ph st) (fun _ h => promised_of_entered h)
    fun _ _ _ _ _ _ _ _ => trivial
  revealed st := leads_done (q := fun _ => .written .crashed st) rfl fun _ _ => trivial
  settled st := leads_done (q := fun _ => .written .settling st) rfl fun _ _ => trivial
  armed _ _ _ _ := leads_done (q := fun _ => .done) rfl fun _ _ => trivial
  armedCrash _ := leads_done (q := fun _ => .done) rfl fun _ _ => trivial
  began w _ _ := ⟨trivial, fun _ _ _ _ => ⟨trivial, fun _ _ => ⟨trivial, fun _ => trivial⟩⟩⟩
  found w hi _ := by
    refine ⟨trivial, fun r w' ha hi' => ⟨trivial, ?_⟩⟩
    rintro rounds rfl
    refine ⟨fun _ => trivial, fun c stale hcons => ?_⟩
    subst hcons
    obtain ⟨o, σ', -, hexec, rfl⟩ := ha
    obtain ⟨hrounds, rfl⟩ := exec_findOpenRounds hexec
    obtain ⟨hrow, hopen⟩ := mem_openRounds.1 (hrounds ▸ List.mem_cons_self : c ∈ w.state.openRounds)
    refine ⟨hopen, fun hlate => ⟨c.2, hrow, hi.settling _ _ hrow ?_⟩⟩
    cases hph : c.2.status <;> simp_all [Phase.isOpen]
  closedExtra _ _ := leads_same rfl
  settledExtra _ _ := leads_same rfl
  closed _ := leads_done (q := fun _ => .enter .waiting) rfl fun _ _ => trivial
  dated c := leads (q := fun t => .dated c t) (fun _ _ => trivial) fun _ _ _ _ _ _ hexec h =>
    h.mono (p := .found c) fun _ hk => hk.exec hexec
  resumed c t := leads (q := fun _ => .resumed c t) (fun _ h => h) fun _ _ _ _ _ _ hexec h =>
    h.mono (p := .dated c t) fun _ hk => hk.exec hexec
  rearmed _ _ _ _ _ := leads_done (q := fun _ => .done) rfl fun _ _ => trivial
  overdue _ _ _ _ _ _ _ _ := trivial
  reread c t _ w hi hw := by
    obtain ⟨hp, hk⟩ := leads_same (p := .resumed c t) (s := .readState n) rfl w hi hw
    exact ⟨hp, fun r w' ha hi' => ⟨trivial, fun s _ =>
      ⟨(leads_same rfl).imp fun _ _ => trivial, (hk r w' ha hi').1⟩⟩⟩
  settledAgain c t _ := (leads_same rfl).imp fun _ _ => trivial

lemma recorded_sound : (recorded P).Sound :=
  sound_of_course (fun _ => trivial) (fun _ _ _ => trivial) course (fun _ _ _ _ _ hi hp ha => hi.step hp ha)
    (fun _ _ hi hm => hi.moves hm) (fun _ _ _ _ _ _ _ _ _ _ _ => trivial)
    fun _ _ _ _ _ _ _ _ _ _ _ _ _ _ => trivial

/-- No process is up, and what has been left in settling has crashed. -/
structure AtRest (σ : State) : Prop where
  down : ∀ n, (σ.nodes n).state = none
  settling : ∀ k x, σ.rounds.row k = some x → x.status = .settling → x.crashedAt.isSome

lemma engineInv_of_reaches {c : GameConfig} (hσ : AtRest σ)
    (h : afterCrash.Reaches (system P) (Config.initial σ) c) : EngineInv c.world.state := by
  have hinitial : EngineInv σ := ⟨hσ.settling, fun n st hst => by rw [hσ.down n] at hst; cases hst⟩
  have hgood : c.Good (recorded P) := (Config.good_initial hinitial).reaches recorded_sound h
  exact hgood.inv

lemma EngineInv.crashed (h : EngineInv σ) {st : EngineState} (hst : (σ.nodes n).state = some st)
    (hph : st.phase = .crashed ∨ late st.phase) : Crashed st.roundId σ := by
  rcases hph with hph | hph
  · exact .inr ⟨n, st, hst, rfl, hph⟩
  · exact .inl (h.engine n st hst hph)

end Engines

section Deployments

open VaultRun.Public

/-- The tables, the engines and the rounds of one deployment, whose steps `R` allows. -/
structure Reachable (R : GameRule) (P : Params) (F : Fairness.Params) (blockHash : ℕ → String)
    (D : Deployment) : Prop where
  fair : ∃ log, Fairness.Deployed (fun F' => F'.sha256Hex = F.sha256Hex ∧ F'.hmacSha256 = F.hmacSha256)
    (ProvableRounds.resolving blockHash) D.fair log
  game : ∃ σ c, AtRest σ ∧ R.Reaches (system P) (Config.initial σ) c ∧ c.world.state = D.game
  rounds : ∀ k, Option.Rel (fun x y => D.seedOf x.seedId = y.seedId ∧ x.crashPoint = y.crashPoint)
    (D.game.rounds.row k) (D.fair.rounds.row k)

/-- A seed that is not revealed, and comes after all that are. -/
def Secret (D : Deployment) (id : ℕ × ℕ) : Prop :=
  ∀ j y, D.fair.seeds.row (id.1, j) = some y → y.revealed → j < id.2

/-- The deployments agree on all but the crash points of rounds that have not crashed and the secret seeds. -/
structure Alike (D D' : Deployment) : Prop where
  game : D'.game = { D.game with rounds := D'.game.rounds, nodes := D'.game.nodes }
  rounds : D.game.rounds.Alike (fun k x y => y = { x with crashPoint := y.crashPoint } ∧
    (Crashed k D.game → y.crashPoint = x.crashPoint)) D'.game.rounds.toTable
  next : D'.game.rounds.next = D.game.rounds.next
  nodes : ∀ n, D'.game.nodes n = { D.game.nodes n with state := (D'.game.nodes n).state } ∧
    Option.Rel (fun x y => y = { x with crashPoint := y.crashPoint } ∧
      (Crashed x.roundId D.game → y.crashPoint = x.crashPoint)) (D.game.nodes n).state (D'.game.nodes n).state
  fair : D'.fair = { D.fair with seeds := D'.fair.seeds, rounds := D'.fair.rounds }
  seeds : D.fair.seeds.Alike (fun id x y => y = { x with seed := y.seed } ∧
    (¬ Secret D id → y.seed = x.seed)) D'.fair.seeds
  rest : D'.seedOf = D.seedOf ∧ D'.columns = D.columns ∧ D'.isLeader = D.isLeader ∧ D'.cache = D.cache

variable {P : Params} {F : Fairness.Params} {blockHash : ℕ → String} {D D' : Deployment} {n k : ℕ}
  {sha256OfUtf8 : String → String}

lemma Alike.now (h : Alike D D') : D'.game.now = D.game.now := by rw [h.game]

lemma Alike.chains (h : Alike D D') : D'.fair.chains = D.fair.chains := by rw [h.fair]

lemma Alike.maintaining (h : Alike D D') : D'.fair.maintaining = D.fair.maintaining := by rw [h.fair]

lemma multiplier_eq {st : EngineState} {t c : ℕ} (h : st.phase = .crashed ∨ late st.phase → c = st.crashPoint) :
    { st with crashPoint := c }.multiplier P t = st.multiplier P t := by
  unfold EngineState.multiplier
  cases hph : st.phase <;> simp_all

lemma Alike.getPublicState (h : Alike D D') (hi : EngineInv D.game) :
    GameEngineService.getPublicState P D' n = GameEngineService.getPublicState P D n := by
  obtain ⟨-, -, hlead, hcache⟩ := h.rest
  unfold GameEngineService.getPublicState
  rw [hlead, hcache, h.now]
  split_ifs
  · have hrel := (h.nodes n).2
    cases hst : (D.game.nodes n).state <;> cases hst' : (D'.game.nodes n).state <;>
      rw [hst, hst'] at hrel <;> cases hrel
    rename_i st st' hst''
    obtain ⟨heq, hcrash⟩ := hst''
    have hmult : st'.multiplier P D.game.now = st.multiplier P D.game.now := by
      rw [heq]
      exact multiplier_eq fun hph => hcrash (hi.crashed hst hph)
    rw [Option.map_some, Option.map_some, hmult, heq]
  · rfl

lemma Alike.mirrored (h : Alike D D') (hi : EngineInv D.game) :
    GameEngineService.mirrored P D' n = GameEngineService.mirrored P D n := by
  unfold GameEngineService.mirrored
  rw [h.getPublicState hi]
  have hrel := (h.nodes n).2
  cases hst : (D.game.nodes n).state <;> cases hst' : (D'.game.nodes n).state <;>
    rw [hst, hst'] at hrel <;> cases hrel
  rename_i st st' hst''
  have hseed : st'.seedId = st.seedId := by rw [hst''.1]
  have hstart : st'.startedAt = st.startedAt := by rw [hst''.1]
  simp [hseed, hstart]

lemma not_secret {id : ℕ × ℕ} {j : ℕ} {x : Fairness.Seed} (hx : D.fair.seeds.row id = some x)
    (hrev : x.revealed) (hj : j ≤ id.2) : ¬ Secret D (id.1, j) :=
  fun h => absurd (h id.2 x hx hrev) (by omega)

lemma Alike.countRevealed (h : Alike D D') :
    FairnessService.countRevealed D' k = FairnessService.countRevealed D k :=
  (h.seeds.count_eq fun _ x y hxy => by rw [hxy.1]).symm

lemma Alike.revealedSeeds (h : Alike D D') :
    FairnessService.revealedSeeds F D' k = FairnessService.revealedSeeds F D k := by
  have hfound : D.fair.seeds.findMany (fun id s => id.1 = k && s.revealed) =
      D'.fair.seeds.findMany fun id s => id.1 = k && s.revealed := by
    have hmap := h.seeds.map_findMany (p := fun id s => id.1 = k && s.revealed) (g := id)
      (fun _ x y hxy => by rw [hxy.1]) fun id x y hx hxy hp => by
        obtain ⟨-, hrev⟩ := Bool.and_eq_true_iff.1 hp
        have hseed := hxy.2 (not_secret hx hrev le_rfl)
        rw [hxy.1, hseed]
    simpa using hmap
  unfold FairnessService.revealedSeeds
  rw [hfound, h.rest.2.1]

lemma Alike.listEpochs (h : Alike D D') :
    FairnessService.listEpochs sha256OfUtf8 D' = FairnessService.listEpochs sha256OfUtf8 D := by
  unfold FairnessService.listEpochs Fairness.State.byEpoch
  simp only [h.chains, h.rest.2.1, h.countRevealed]

lemma Alike.epochSeeds (h : Alike D D') :
    FairnessService.epochSeeds F D' n = FairnessService.epochSeeds F D n := by
  unfold FairnessService.epochSeeds
  simp only [h.chains, h.rest.2.1, h.revealedSeeds]

lemma Alike.prevSeed (h : Alike D D') {id : ℕ × ℕ} {x : Fairness.Seed} (hx : D.fair.seeds.row id = some x)
    (hrev : x.revealed) : FairnessController.prevSeed D' id = FairnessController.prevSeed D id := by
  unfold FairnessController.prevSeed
  split_ifs
  · have hrel := h.seeds.2 (id.1, id.2 - 1)
    cases hy : D.fair.seeds.row (id.1, id.2 - 1) <;> cases hy' : D'.fair.seeds.row (id.1, id.2 - 1) <;>
      rw [hy, hy'] at hrel <;> cases hrel
    rename_i y y' hyy'
    rw [Option.map_some, Option.map_some, hyy'.2 (not_secret hx hrev (Nat.sub_le _ _))]
  · rfl

lemma Reachable.crashPoint {R : GameRule} (h : Reachable R P F blockHash D) {r : Round} {x : Fairness.Seed}
    {c : Fairness.Chain} {salt : String} (hr : D.game.rounds.row k = some r)
    (hx : D.fair.seeds.row (D.seedOf r.seedId) = some x)
    (hc : D.fair.chains.row (D.seedOf r.seedId).1 = some c) (hs : c.salt = some salt) :
    r.crashPoint = F.computeCrash x.seed salt := by
  obtain ⟨log, hfair⟩ := h.fair
  have hprov := ProvableRounds.provable_of_deployed (P := F) hfair ⟨rfl, rfl⟩
  have hrel := h.rounds k
  rw [hr] at hrel
  cases hy : D.fair.rounds.row k <;> rw [hy] at hrel <;> cases hrel
  rename_i y hyr
  obtain ⟨-, -, x', c', salt', hx', hc', hs', hcrash, -⟩ := hprov.round k y hy
  rw [← hyr.1] at hx' hc'
  obtain rfl := Option.some.inj (hx.symm.trans hx')
  obtain rfl := Option.some.inj (hc.symm.trans hc')
  obtain rfl := Option.some.inj (hs.symm.trans hs')
  rw [hyr.2, hcrash]

lemma Alike.round {R : GameRule} (h : Alike D D') (hD : Reachable R P F blockHash D)
    (hD' : Reachable R P F blockHash D') : FairnessController.round F D' k = FairnessController.round F D k := by
  unfold FairnessController.round
  have hrel := h.rounds.2 k
  cases hr : D.game.rounds.row k <;> cases hr' : D'.game.rounds.row k <;> rw [hr, hr'] at hrel <;> cases hrel
  rename_i r r' hrr'
  have hseedId : r'.seedId = r.seedId := by rw [hrr'.1]
  have hstatus : r'.status = r.status := by rw [hrr'.1]
  dsimp only
  rw [h.rest.1, hseedId, h.chains]
  have hrel := h.seeds.2 (D.seedOf r.seedId)
  cases hx : D.fair.seeds.row (D.seedOf r.seedId) <;> cases hx' : D'.fair.seeds.row (D.seedOf r.seedId) <;>
    rw [hx, hx'] at hrel <;> cases hrel
  rename_i x x' hxx'
  cases hc : D.fair.chains.row (D.seedOf r.seedId).1 with
  | none => rfl
  | some c =>
      dsimp only
      have hrevealed : x'.revealed = x.revealed := by rw [hxx'.1]
      rw [hrevealed, hstatus]
      by_cases hrev : x.revealed
      · rw [if_pos hrev, if_pos hrev]
        cases hs : c.salt with
        | none => rfl
        | some salt =>
            have hseed : x'.seed = x.seed := hxx'.2 (not_secret hx hrev le_rfl)
            have hcrash : r'.crashPoint = r.crashPoint := by
              rw [hD.crashPoint hr hx hc hs, ← hseed]
              refine hD'.crashPoint hr' ?_ ?_ hs
              · rw [h.rest.1, hseedId, hx']
              · rw [h.rest.1, hseedId, h.chains, hc]
            simp only [FairnessController.reveal, hseed, hcrash, hstatus, h.prevSeed hx hrev, h.rest.2.1]
      · rw [if_neg hrev, if_neg hrev]

section Current

open VaultRun.Fairness

structure SameEpochs (σ σ' : Fairness.State) : Prop where
  chains : σ'.chains = σ.chains
  seeds : σ.seeds.Alike (fun _ x y => y.revealed = x.revealed) σ'.seeds
  maintaining : σ'.maintaining = σ.maintaining

@[reducible] def offRounds : Fairness.Stmt → Bool
  | .nextUnusedSeed _ | .createRound _ _ | .revealSeed _ => false
  | _ => true

variable {σ σ' : Fairness.State} {s : Fairness.Stmt} {o : Fairness.Oracle}

lemma alike_inserts {l : List (String × ℕ)} {t t' : Table (ℕ × ℕ) Seed}
    (h : t.Alike (fun _ x y => y.revealed = x.revealed) t') :
    (l.foldl (fun t s => t.insert (k, s.2) ⟨s.1, s.2 = 0⟩) t).Alike (fun _ x y => y.revealed = x.revealed)
      (l.foldl (fun t s => t.insert (k, s.2) ⟨s.1, s.2 = 0⟩) t') := by
  induction l generalizing t t' with
  | nil => exact h
  | cons x l ih => exact ih (h.insert rfl)

lemma SameEpochs.createSeeds (h : SameEpochs σ σ') {seeds : List String} :
    Agree SameEpochs (σ.createSeeds k seeds) (σ'.createSeeds k seeds) := by
  have hsome (id : ℕ × ℕ) : (σ'.seeds.row id).isSome = (σ.seeds.row id).isSome := by
    rw [Bool.eq_iff_iff, Option.isSome_iff_ne_none, Option.isSome_iff_ne_none, ne_eq, ne_eq, h.seeds.row_eq_none]
  unfold State.createSeeds
  simp only [hsome]
  split_ifs
  · exact ⟨rfl, h⟩
  · exact ⟨rfl, h.chains, alike_inserts h.seeds, h.maintaining⟩

lemma SameEpochs.perform (h : SameEpochs σ σ') (hs : offRounds s) :
    Option.Rel (Agree SameEpochs) (Fairness.perform s σ) (Fairness.perform s σ') := by
  obtain ⟨chains, seeds, rounds, maintaining⟩ := σ
  obtain ⟨chains', seeds', rounds', maintaining'⟩ := σ'
  obtain ⟨rfl, hseeds, rfl⟩ := id h
  cases s with
  | beginMaintain n => exact .some ⟨rfl, rfl, hseeds, rfl⟩
  | endMaintain n => exact .some ⟨rfl, rfl, hseeds, rfl⟩
  | findActive | findFirst | findPendings | maxEpoch | countQueued | findNext => exact .some ⟨rfl, h⟩
  | updateChain id d =>
      simp only [Fairness.perform]
      split
      · exact .some ⟨rfl, rfl, hseeds, rfl⟩
      · exact .some ⟨rfl, h⟩
  | createChain row =>
      refine .some ?_
      unfold State.createChain
      split_ifs
      · exact ⟨rfl, rfl, hseeds, rfl⟩
      · exact ⟨rfl, h⟩
  | createSeeds id l => exact .some h.createSeeds
  | countRevealed id =>
      refine .some ⟨?_, h⟩
      exact congrArg Except.ok (hseeds.count_eq fun _ x y hxy => by rw [hxy])
  | latestBlockNumber | finalizedBlockHash | randomBytes => exact .none
  | nextUnusedSeed | createRound | revealSeed => cases hs

lemma SameEpochs.exec (h : SameEpochs σ σ') (hs : offRounds s) :
    Option.Rel (Agree SameEpochs) (Fairness.exec o s σ) (Fairness.exec o s σ') := by
  have hp := h.perform hs
  cases o with
  | ok => exact hp
  | lost =>
      simp only [Fairness.exec]
      split_ifs
      · exact .none
      · exact .some ⟨rfl, h⟩
  | unacked =>
      simp only [Fairness.exec]
      split_ifs
      · exact .none
      · cases hx : Fairness.perform s σ <;> cases hy : Fairness.perform s σ' <;> rw [hx, hy] at hp <;> cases hp
        · exact .none
        · rename_i hxy
          exact .some ⟨rfl, hxy.2⟩
  | head | hash | bytes =>
      cases s <;> first | exact .none | exact .some ⟨rfl, h⟩

lemma currentCommit_uses : (FairnessController.currentCommit F).Uses fun s => offRounds s = true := by
  have hcommit : FairnessService.getCurrentCommit.Uses fun s => offRounds s = true := by
    refine Program.uses_bind.2 ⟨await_uses rfl, fun r _ => ?_⟩
    cases r with
    | none => trivial
    | some c =>
        refine Program.uses_bind.2 ⟨await_uses rfl, fun _ _ => Program.uses_bind.2 ⟨await_uses rfl, fun _ _ => ?_⟩⟩
        trivial
  have hensure : (FairnessService.ensureActiveChain F).Uses fun s => offRounds s = true := by
    refine ensureActiveChain_uses (fun s hs => ?_) fun _ _ => rfl
    cases s <;> first | rfl | cases hs
  exact Program.uses_bind.2 ⟨Program.uses_bind.2 ⟨hensure, fun _ _ => hcommit⟩, fun _ _ => hcommit⟩

lemma Alike.current {os : List Fairness.Oracle} (h : Alike D D') :
    FairnessController.current F sha256OfUtf8 D' os = FairnessController.current F sha256OfUtf8 D os := by
  have hsame : SameEpochs D.fair D'.fair :=
    ⟨h.chains, h.seeds.mono fun _ x y hxy => by rw [hxy.1], h.maintaining⟩
  have hrun : Option.Rel (Agree SameEpochs)
      (runAlone (Fairness.system F) 0 (FairnessController.currentCommit F) os D.fair)
      (runAlone (Fairness.system F) 0 (FairnessController.currentCommit F) os D'.fair) :=
    runAlone_agree (fun _ _ _ _ hs h => SameEpochs.exec h hs) currentCommit_uses hsame
  have hinfo : FairnessService.commitInfo sha256OfUtf8 D' = FairnessService.commitInfo sha256OfUtf8 D := by
    funext c
    unfold FairnessService.commitInfo
    rw [h.rest.2.1]
  unfold FairnessController.current
  rw [map_fst_of_agree hrun, hinfo]

end Current

/-- Whatever anyone reads is the same in both, as long as no engine settles a round before its crash is
recorded. -/
theorem outputs_secret (hD : Reachable afterCrash P F blockHash D) (hD' : Reachable afterCrash P F blockHash D')
    (h : Alike D D') : D.outputs P F sha256OfUtf8 = D'.outputs P F sha256OfUtf8 := by
  obtain ⟨σ, c, hσ, hreach, hgame⟩ := hD.game
  have hi : EngineInv D.game := hgame ▸ engineInv_of_reaches hσ hreach
  have hstate (n : ℕ) := h.getPublicState (P := P) (n := n) hi
  have hmirror (n : ℕ) := h.mirrored (P := P) (n := n) hi
  have hfollowed (n m : ℕ) : GameEngineService.followed P D' n m = GameEngineService.followed P D n m := by
    unfold GameEngineService.followed
    rw [hmirror, h.rest.2.2.2, h.now]
  unfold Deployment.outputs
  congr 1
  · exact funext fun n => (hstate n).symm
  · exact funext fun n => (hmirror n).symm
  · exact funext fun n => funext fun m => (hfollowed n m).symm
  · funext n m
    rw [hfollowed, h.now]
  · exact funext fun os => h.current.symm
  · exact funext fun k => (h.round hD hD').symm
  · exact h.listEpochs.symm
  · exact funext fun n => h.epochSeeds.symm

end Deployments

section Runs

open Scenario VaultRun.Public

/-- The last of three seeds decides what the crash of the second round is. -/
def hashes : Fairness.Params :=
  { Fairness.Scenario.params false .random with
    chainLengthEnv := some 3
    hmacSha256 := fun seed _ => if seed = "commit" then 2 ^ 51 else if seed = "low" then 2 ^ 50 else 2 ^ 49 }

def opened (last : String) : List (Machine.Label Fairness.Event Fairness.Oracle) :=
  .env (.call .openRound) :: Fairness.Scenario.acts 0 4 ++ [.act 0 (.bytes "salt"), .act 0 (.bytes last)] ++
    Fairness.Scenario.acts 0 4 ++ .env (.call (.revealSeed (0, 1))) :: Fairness.Scenario.acts 1 1 ++
    .env (.call .openRound) :: Fairness.Scenario.acts 2 3

def fresh : State := { idle .waiting with rounds := ∅, nodes := fun _ => ⟨none, none, false, []⟩ }

/-- The first round crashes at 1.93; its settling hangs at the fence until the deadline gives it up; the second
round opens; then the settling goes on, if it is `late`. -/
def played (late : Bool) (crash : ℕ) : List (Machine.Label Event Oracle) :=
  .env (.call (.start 0)) :: acts 0 7 ++ [.act 0 (.seed (some (1, 193)))] ++ acts 0 5 ++
    .env (.tick 3000) :: .env (.timer 0) :: acts 1 7 ++ .env (.tick 5000) :: .env (.timer 0) :: acts 2 7 ++
    .env (.tick 9300) :: .env (.timer 0) :: acts 3 8 ++ .env (.tick 2500) :: .env (.timer 0) :: acts 4 1 ++
    .env (.tick 10000) :: .env (.deadline 0 4) :: .env (.tick 1500) :: .env (.timer 0) :: acts 5 1 ++
    .act 5 (.seed (some (2, crash))) :: acts 5 6 ++ acts 4 (bif late then 2 else 0)

def game (late : Bool) (crash : ℕ) : GameConfig :=
  ((system (params false false)).run (Config.initial fresh) (played late crash)).getD (Config.initial fresh)

def fairness (last : String) : Fairness.FairConfig :=
  ((Fairness.system hashes).run (Config.initial .empty) (opened last)).getD (Config.initial .empty)

def deployment (late : Bool) (last : String) (crash : ℕ) : Deployment where
  game := (game late crash).world.state
  fair := (fairness last).world.state
  seedOf k := (0, k)
  columns := ⟨fun _ => none, fun _ => 0, fun _ => none, fun _ => 0⟩
  isLeader n := n == 0
  cache _ := none

section Facts

variable (late : Bool) (crash : ℕ)

lemma game_isSome : ((system (params false false)).run (Config.initial fresh) (played late crash)).isSome := by
  cases late <;> rfl

lemma game_reaches {R : GameRule} (hR : R.Obeys (system (params false false)) (Config.initial fresh) (played late crash)) :
    R.Reaches (system (params false false)) (Config.initial fresh) (game late crash) := by
  obtain ⟨c, hc⟩ := Option.isSome_iff_exists.1 (game_isSome late crash)
  rw [game, hc]
  exact Rule.reaches_of_run hR hc

structure Ends (σ : State) : Prop where
  ids : σ.rounds.ids = [0, 1]
  next : σ.rounds.next = 2
  first : σ.rounds.row 0 = some ⟨1, 193, .crashed, some 19800, some 8000, some 17300, none, 0⟩
  second : σ.rounds.row 1 = some ⟨2, crash, .waiting, some 34300, none, none, none, 31300⟩
  engine : σ.nodes 0 =
    ⟨some ⟨1, 2, bif late then .settling else .waiting, bif late then 31800 else 34300, none, crash⟩,
      some (34300, .betting), true, []⟩
  others : ∀ n, σ.nodes (n + 1) = ⟨none, none, false, []⟩
  bets : σ.bets = ∅
  wallets : σ.wallets = fresh.wallets
  ledger : σ.ledger = ∅
  rollbacks : σ.rollbacks = ∅
  operator : σ.operator = fresh.operator
  operatorBalance : σ.operatorBalance = fresh.operatorBalance
  roundLocks : σ.roundLocks = fresh.roundLocks
  settles : σ.settles = []
  now : σ.now = 31300

lemma game_ends : Ends late crash (game late crash).world.state := by
  cases late <;> constructor
  case false.others | true.others => exact fun _ => rfl
  all_goals rfl

lemma Ends.rest {crash' : ℕ} {σ σ' : State} (h : Ends late crash σ) (h' : Ends late crash' σ') :
    σ' = { σ with rounds := σ'.rounds, nodes := σ'.nodes } := by
  cases σ
  cases σ'
  obtain ⟨-, -, -, -, -, -, rfl, rfl, rfl, rfl, rfl, rfl, rfl, rfl, rfl⟩ := h
  obtain ⟨-, -, -, -, -, -, rfl, rfl, rfl, rfl, rfl, rfl, rfl, rfl, rfl⟩ := h'
  rfl

lemma fairness_ends {last : String} (h : last = "low" ∨ last = "high") :
    (((Fairness.system hashes).run (Config.initial .empty) (opened last)).isSome ∧
      (ProvableRounds.resolving fun _ => "").Obeys (Fairness.system hashes) (Config.initial .empty) (opened last)) ∧
    ((fairness last).world.state.rounds.ids = [0, 1] ∧
      (fairness last).world.state.rounds.row 0 = some ⟨(0, 1), 193⟩ ∧
      (fairness last).world.state.rounds.row 1 = some ⟨(0, 2), hashes.computeCrash last "salt"⟩) ∧
    (fairness last).world.state.seeds.ids = [(0, 0), (0, 1), (0, 2)] ∧
      (fairness last).world.state.seeds.row (0, 0) = some ⟨"commit", true⟩ ∧
      (fairness last).world.state.seeds.row (0, 1) = some ⟨"commit", true⟩ ∧
      (fairness last).world.state.seeds.row (0, 2) = some ⟨last, false⟩ := by
  rcases h with rfl | rfl <;> decide +kernel

lemma fairness_reaches {last : String} (h : last = "low" ∨ last = "high") :
    (ProvableRounds.resolving fun _ => "").Reaches (Fairness.system hashes) (Config.initial .empty)
      (fairness last) := by
  obtain ⟨⟨hrun, hobeys⟩, -, -⟩ := fairness_ends h
  obtain ⟨c, hc⟩ := Option.isSome_iff_exists.1 hrun
  rw [fairness, hc]
  exact Rule.reaches_of_run hobeys hc

lemma fairness_chains : (fairness "high").world.state.chains = (fairness "low").world.state.chains := by
  refine Records.eq_of_rows ?_ ?_ ?_ <;> decide +kernel

lemma fairness_maintaining :
    (fairness "high").world.state.maintaining = (fairness "low").world.state.maintaining := by
  rfl

attribute [irreducible] game fairness

lemma reachable {R : GameRule} {late : Bool} {last : String} {crash : ℕ}
    (hlast : last = "low" ∧ crash = 387 ∨ last = "high" ∧ crash = 775)
    (hR : R.Obeys (system (params false false)) (Config.initial fresh) (played late crash)) :
    Reachable R (params false false) hashes (fun _ => "") (deployment late last crash) where
  fair := by
    have hlast := hlast.imp And.left And.left
    exact ⟨_, Fairness.Deployed.deploy .empty ⟨rfl, rfl⟩ (fairness_reaches hlast)⟩
  game := ⟨fresh, _, ⟨fun _ => rfl, fun k x hx => by cases hx⟩, game_reaches late crash hR, rfl⟩
  rounds k := by
    obtain ⟨-, ⟨hids, hfirst, hsecond⟩, -⟩ := fairness_ends (hlast.imp And.left And.left)
    change Option.Rel _ ((game late crash).world.state.rounds.row k) ((fairness last).world.state.rounds.row k)
    by_cases hk : k ∈ [0, 1]
    · simp only [List.mem_cons, List.not_mem_nil, or_false] at hk
      rcases hk with rfl | rfl
      · rw [(game_ends late crash).first, hfirst]
        exact .some ⟨rfl, rfl⟩
      · rw [(game_ends late crash).second, hsecond]
        refine .some ⟨rfl, ?_⟩
        rcases hlast with ⟨rfl, rfl⟩ | ⟨rfl, rfl⟩ <;> decide +kernel
    · rw [Table.row_of_not_mem (by rw [(game_ends late crash).ids]; exact hk), Table.row_of_not_mem (by rw [hids]; exact hk)]
      exact .none

lemma not_crashed {c : ℕ} : ¬ Crashed 1 (game late c).world.state := by
  rintro (⟨x, hx, hc⟩ | ⟨n, st, hst, -, hph⟩)
  · rw [(game_ends late c).second] at hx
    obtain rfl := Option.some.inj hx
    cases hc
  · cases n with
    | zero =>
        rw [(game_ends late c).engine] at hst
        obtain rfl := Option.some.inj hst
        cases late <;> cases hph
    | succ n =>
        rw [(game_ends late c).others] at hst
        cases hst

lemma secret : Secret (deployment late "low" crash) (0, 2) := by
  intro j y hy hrev
  obtain ⟨-, -, hids, -, -, hlast⟩ := fairness_ends (.inl rfl)
  have hmem := (fairness "low").world.state.seeds.row_mem _ _ hy
  rw [hids] at hmem
  simp only [List.mem_cons, Prod.mk.injEq, true_and, List.not_mem_nil, or_false] at hmem
  rcases hmem with rfl | rfl | rfl
  · decide
  · decide
  · obtain rfl := Option.some.inj (hlast.symm.trans hy)
    cases hrev

lemma alike : Alike (deployment late "low" 387) (deployment late "high" 775) where
  game := Ends.rest late 387 (game_ends late 387) (game_ends late 775)
  rounds := by
    refine Table.alike_of_ids ((game_ends late 387).ids.trans (game_ends late 775).ids.symm) fun k hk => ?_
    change Option.Rel _ ((game late 387).world.state.rounds.row k) ((game late 775).world.state.rounds.row k)
    change k ∈ (game late 387).world.state.rounds.ids at hk
    rw [(game_ends late 387).ids] at hk
    simp only [List.mem_cons, List.not_mem_nil, or_false] at hk
    rcases hk with rfl | rfl
    · rw [(game_ends late 387).first, (game_ends late 775).first]
      exact .some ⟨rfl, fun _ => rfl⟩
    · rw [(game_ends late 387).second, (game_ends late 775).second]
      exact .some ⟨rfl, fun h => absurd h (not_crashed late)⟩
  next := (game_ends late 775).next.trans (game_ends late 387).next.symm
  nodes n := by
    change (game late 775).world.state.nodes n = { (game late 387).world.state.nodes n with
      state := ((game late 775).world.state.nodes n).state } ∧ Option.Rel _
        ((game late 387).world.state.nodes n).state ((game late 775).world.state.nodes n).state
    cases n with
    | zero =>
        rw [(game_ends late 387).engine, (game_ends late 775).engine]
        exact ⟨rfl, .some ⟨rfl, fun h => absurd h (not_crashed late)⟩⟩
    | succ n =>
        rw [(game_ends late 387).others, (game_ends late 775).others]
        exact ⟨rfl, .none⟩
  fair := by
    change (fairness "high").world.state = { (fairness "low").world.state with
      seeds := (fairness "high").world.state.seeds, rounds := (fairness "high").world.state.rounds }
    dsimp only
    rw [← fairness_chains, ← fairness_maintaining]
  seeds := by
    obtain ⟨-, -, hids, h₀, h₁, h₂⟩ := fairness_ends (.inl rfl)
    obtain ⟨-, -, hids', h₀', h₁', h₂'⟩ := fairness_ends (.inr rfl)
    refine Table.alike_of_ids (hids.trans hids'.symm) fun k hk => ?_
    change k ∈ (fairness "low").world.state.seeds.ids at hk
    change Option.Rel _ ((fairness "low").world.state.seeds.row k) ((fairness "high").world.state.seeds.row k)
    rw [hids] at hk
    simp only [List.mem_cons, List.not_mem_nil, or_false] at hk
    rcases hk with rfl | rfl | rfl
    · rw [h₀, h₀']
      exact .some ⟨rfl, fun _ => rfl⟩
    · rw [h₁, h₁']
      exact .some ⟨rfl, fun _ => rfl⟩
    · rw [h₂, h₂']
      exact .some ⟨rfl, fun h => absurd (secret late 387) h⟩
  rest := ⟨rfl, rfl, rfl, rfl⟩

end Facts

lemma shown (late : Bool) (last : String) (crash : ℕ) :
    (((deployment late last crash).outputs (params false false) hashes id).publicState 0).map (·.multiplier) =
      some (bif late then crash else 100) := by
  change (GameEngineService.getPublicState (params false false) (deployment late last crash) 0).map _ = _
  have hengine := (game_ends late crash).engine
  simp only [GameEngineService.getPublicState, deployment, hengine]
  cases late <;> rfl

/-- The settling of the first round goes on after the second has opened: it takes that round for its own, and
shows its crash point before its betting opens. -/
theorem late_settling_shows_crash : ∃ D D' : Deployment,
    Reachable Rule.free (params false false) hashes (fun _ => "") D ∧
      Reachable Rule.free (params false false) hashes (fun _ => "") D' ∧ Alike D D' ∧
        D.outputs (params false false) hashes id ≠ D'.outputs (params false false) hashes id := by
  refine ⟨_, _, reachable (.inl ⟨rfl, rfl⟩) Rule.obeys_free, reachable (.inr ⟨rfl, rfl⟩) Rule.obeys_free,
    alike true, fun h => ?_⟩
  have hshown := congrArg (fun O : Outputs => (O.publicState 0).map (·.multiplier)) h
  simp only [shown, cond_true] at hshown
  cases hshown

instance (k : ℕ) (w : GameWorld) : Decidable (Stamped k w.state) :=
  decidable_of_iff ((w.state.rounds.row k).any (·.crashedAt.isSome) = true) <| by
    simp [Stamped, Option.any_eq_true]

/-- As long as the settling hangs, no one can tell a crash at 3.87 from a crash at 7.75. -/
theorem open_round_secret :
    (deployment false "low" 387).outputs (params false false) hashes id =
      (deployment false "high" 775).outputs (params false false) hashes id :=
  outputs_secret (reachable (.inl ⟨rfl, rfl⟩) (by decide +kernel))
    (reachable (.inr ⟨rfl, rfl⟩) (by decide +kernel)) (alike false)

end Runs

end VaultRun.Safety.SecretCrash
