import VaultRun.Game.Helm
import VaultRun.Game.Scenario

/-!
A seed is revealed after the crash of its own round: a crash and a revelation wait until the round has run
for as long as its crash point takes, where no routine that a deadline has given up drives the engine.
-/

namespace VaultRun.Safety.SeedReveal

open VaultRun.Concurrency VaultRun.Data VaultRun.Game Program

def PersistsRunning (k t : ℕ) (x : GameEntry) : Prop :=
  ∃ i d r b a y, x = .answered i (.updateRound k d) r b a ∧ d.status = some .running ∧
    d.startedAt = some t ∧ a.rounds.row k = some y ∧ y.startedAt = some t

def WasRunning (σ : State) (log : List GameEntry) (k t : ℕ) : Prop :=
  (∃ y, σ.rounds.row k = some y ∧ y.startedAt = some t) ∨ ∃ x ∈ log, PersistsRunning k t x

/-- Round `k`, which uses the seed, has run for as long as its crash point takes, and takes no more bets. -/
def Elapsed (P : Params) (σ₀ : State) (k seed : ℕ) (log : List GameEntry) (σ : State) : Prop :=
  ∃ y t, σ.rounds.row k = some y ∧ y.seedId = seed ∧ y.startedAt = some t ∧
    WasRunning σ₀ log k t ∧ t + P.crashDelay y.crashPoint ≤ σ.now ∧ y.status ≠ .waiting ∧ y.status ≠ .betting

/-- The last statement before the revelation in `enterCrashed` and in `resumeRound`; the closing of a
stale round has neither. -/
@[reducible] def byCrash : Option GameEntry → Bool
  | some (.answered _ (.updateRound _ d) _ _ _) => d.status = some .crashed
  | some (.answered _ (.readState _) _ _ _) => true
  | _ => false

/-- A revelation by `enterCrashed` or `resumeRound`, and the crash of a round, as they should be. -/
def Due (P : Params) (σ₀ : State) (x : GameEntry) (earlier : List GameEntry) : Prop :=
  (∀ i seed, x.Issues i (Stmt.revealSeed seed) → byCrash (lastBy i earlier) →
    ∃ k, Elapsed P σ₀ k seed earlier x.before) ∧
  ∀ i k d y, x.Issues i (Stmt.updateRound k d) → d.status = some .crashed → x.before.rounds.row k = some y →
    Elapsed P σ₀ k y.seedId earlier x.before

@[reducible] def steered : GameRule where
  act i _ s w := Driven i s w.log
  kill _ _ := True
  env _ _ _ := True

variable (P : Params)

structure Stamped (now : ℕ) (x : Round) : Prop where
  fresh : x.status = .waiting ∨ x.status = .betting → x.startedAt = none
  past : x.status = .crashed ∨ x.status = .settling →
    ∃ t, x.startedAt = some t ∧ t + P.crashDelay x.crashPoint ≤ now

def Ready (σ : State) (s : EngineState) (t : ℕ) (ph : Phase) : Prop :=
  ph ≠ .waiting → ∃ x, σ.rounds.row s.roundId = some x ∧ x.seedId = s.seedId ∧ x.crashPoint = s.crashPoint ∧
    if ph = .betting ∨ ph = .running then x.startedAt = none
    else ∃ a, x.startedAt = some a ∧ a + P.crashDelay s.crashPoint ≤ t

def Timely (n : ℕ) (σ : State) (due : ℕ) (ph : Phase) : Prop :=
  ph = .waiting ∨ ∃ s, (σ.nodes n).state = some s ∧ Ready P σ s due ph

def Fine (n : ℕ) (σ : State) (s : Stmt) : Prop := Calm n σ ∧ match s with
  | .schedule _ ms ph => Timely P n σ (σ.now + ms) ph
  | .scheduleCrash _ => ∃ s, (σ.nodes n).state = some s ∧
      Ready P σ s (σ.now + P.crashDelay s.crashPoint) .crashed
  | .updateRound k d => ∀ x, σ.rounds.row k = some x →
      Stamped P σ.now (d.apply σ.now x) ∧ (d.startedAt.isSome → x.startedAt = none)
  | _ => True

structure RevealInv (σ₀ : State) (w : GameWorld) : Prop where
  stamped : ∀ k x, w.state.rounds.row k = some x → Stamped P w.state.now x
  reigns : Reigns P w
  resting : Resting w.state
  armed : ∀ n c, helm w.log = some (n, c) → Armed (Timely P) n w.state
  ran : ∀ k x t, w.state.rounds.row k = some x → x.startedAt = some t → WasRunning σ₀ w.log k t
  due : Throughout (Due P σ₀) w.log

structure RevealPre (σ₀ : State) (i : ℕ) (s : Stmt) (w : GameWorld) : Prop extends Piloted (Fine P) i s w where
  reveal : ∀ seed, s = .revealSeed seed → byCrash (lastBy i w.log) →
    ∃ k, Elapsed P σ₀ k seed w.log w.state
  crash : ∀ k d y, s = .updateRound k d → d.status = some .crashed → w.state.rounds.row k = some y →
    Elapsed P σ₀ k y.seedId w.log w.state

def seedReveal (σ₀ : State) : Contract (system P) where
  rule := steered.fresh (system P)
  inv := RevealInv P σ₀
  stmts _ := True
  pre := RevealPre P σ₀
  ended _ _ _ := True

variable {P} {σ₀ σ σ' : State} {w w' : GameWorld} {i n k seed : ℕ} {s : Stmt} {r : game.Reply s} {o : Oracle}
  {log : List GameEntry} {st : EngineState} {ph : Phase} {t t' : ℕ}

lemma WasRunning.cons {x : GameEntry} (h : WasRunning σ₀ log k t) : WasRunning σ₀ (x :: log) k t :=
  h.imp_right fun ⟨y, hy, hp⟩ => ⟨y, List.mem_cons_of_mem x hy, hp⟩

lemma Stamped.mono {x : Round} (h : Stamped P t x) (ht : t ≤ t') : Stamped P t' x :=
  ⟨h.fresh, fun hx => (h.past hx).imp fun _ ha => ⟨ha.1, ha.2.trans ht⟩⟩

lemma Ready.later (h : Ready P σ st t ph) (ht : t ≤ t')
    (hround : ∀ k, σ'.rounds.row k = σ.rounds.row k ∨ ∃ x x', σ.rounds.row k = some x ∧
      σ'.rounds.row k = some x' ∧ x'.seedId = x.seedId ∧ x'.crashPoint = x.crashPoint ∧
      x'.startedAt = x.startedAt) : Ready P σ' st t' ph := by
  intro hph
  obtain ⟨x, hx, hseed, hcrash, hif⟩ := h hph
  have hif' : if ph = .betting ∨ ph = .running then x.startedAt = none
      else ∃ a, x.startedAt = some a ∧ a + P.crashDelay st.crashPoint ≤ t' := by
    split_ifs at hif ⊢
    · exact hif
    · exact hif.imp fun _ ha => ⟨ha.1, ha.2.trans ht⟩
  rcases hround st.roundId with hk | ⟨y, y', hy, hy', hs, hc, ha⟩
  · exact ⟨x, hk.trans hx, hseed, hcrash, hif'⟩
  · obtain rfl := Option.some.inj (hx.symm.trans hy)
    exact ⟨y', hy', hs.trans hseed, hc.trans hcrash, by rwa [ha]⟩

lemma Ready.aside (h : Ready P σ st t ph) (ha : Aside n σ σ') (ht : t ≤ t') : Ready P σ' st t' ph :=
  h.later ht fun k => (ha.round k).imp_right
    fun ⟨x, x', hx, hx', hs, hc, hst, _⟩ => ⟨x, x', hx, hx', hs, hc, hst⟩

section Step

/-- The round of the current routine changes as it promises, and every other round just ends. -/
lemma stamped_step (hi : RevealInv P σ₀ w) (hp : RevealPre P σ₀ i s w) (hd : Driven i s w.log)
    (hexec : exec P o i s w.state = some (r, σ')) {x : Round} (hx : σ'.rounds.row k = some x) :
    Stamped P σ'.now x := by
  rw [exec_now hexec]
  rcases exec_roundChange hexec k with hk | ⟨-, hrow⟩ | ⟨hold, hrow⟩ | ⟨hold, hrow⟩
  · exact hi.stamped k x (hk ▸ hx)
  · obtain rfl := Option.some.inj (hrow.symm.trans hx)
    exact ⟨fun _ => rfl, by simp⟩
  · obtain rfl := Option.some.inj (hrow.symm.trans hx)
    rename_i d old
    by_cases hdrive : Stmt.drives (.updateRound k d)
    · obtain ⟨m, hm, -⟩ := hd hdrive
      exact ((hp.fine hdrive m hm nofun).2 old hold).1
    · have hstart : d.startedAt = none := by
        by_contra hne
        exact hdrive (by simp [Stmt.drives, hp.stamps k d rfl (Option.isSome_iff_ne_none.2 hne), Phase.isOpen])
      have hsame := hi.stamped k old hold
      cases hst : d.status with
      | none => exact ⟨by simpa [RoundData.apply, hst, hstart] using hsame.fresh,
          by simpa [RoundData.apply, hst, hstart] using hsame.past⟩
      | some ph =>
          have hph : ph = .completed := by cases ph <;> simp_all [Stmt.drives, Phase.isOpen]
          subst hph
          constructor <;> simp [RoundData.apply, hst]
  · obtain rfl := Option.some.inj (hrow.symm.trans hx)
    exact ⟨(hi.stamped k _ hold).fresh, (hi.stamped k _ hold).past⟩

lemma ran_step (hi : RevealInv P σ₀ w) (hp : RevealPre P σ₀ i s w)
    (hexec : exec P o i s w.state = some (r, σ')) {x : Round} (hx : σ'.rounds.row k = some x)
    (ht : x.startedAt = some t) : WasRunning σ₀ (w.answer i s r σ').log k t := by
  rcases exec_roundChange hexec k with hk | ⟨-, hrow⟩ | ⟨hold, hrow⟩ | ⟨hold, hrow⟩
  · exact (hi.ran k x t (hk ▸ hx) ht).cons
  · obtain rfl := Option.some.inj (hrow.symm.trans hx)
    cases ht
  · rename_i d old
    obtain rfl := Option.some.inj (hrow.symm.trans hx)
    cases hst : d.startedAt with
    | none => exact (hi.ran k old t hold (by simpa [RoundData.apply, hst] using ht)).cons
    | some a =>
        obtain rfl : a = t := by simpa [RoundData.apply, hst] using ht
        exact .inr ⟨_, List.mem_cons_self, i, d, r, _, _, _, rfl,
          hp.stamps k d rfl (by simp [hst]), hst, hrow, ht⟩
  · obtain rfl := Option.some.inj (hrow.symm.trans hx)
    exact (hi.ran k _ t hold ht).cons

lemma Timely.aside (h : Timely P n σ t ph) (ha : Aside n σ σ') (ht : t ≤ t') : Timely P n σ' t' ph :=
  h.imp_right fun ⟨st, hst, hr⟩ => ⟨st, ha.state.trans hst, hr.aside ha ht⟩

lemma armed_of_calm (h : Calm n σ) : Armed (Timely P) n σ := h.armed fun _ => .inl rfl

lemma armed_aside (h : Armed (Timely P) n σ) (ha : Aside n σ σ') : Armed (Timely P) n σ' := by
  intro due ph ht
  rcases ha.timer _ ht with hold | hw
  · exact (h due ph hold).aside ha le_rfl
  · exact .inl hw

lemma armed_of_drives (hfine : Fine P n w.state s) (hd : s.drives) (hexec : exec P o i s w.state = some (r, σ')) :
    Armed (Timely P) n σ' := by
  obtain ⟨hcalm, hfine⟩ := hfine
  intro due ph ht
  rcases exec_arms hexec hd ht with hold | ⟨harms, hstate, hrounds⟩
  · exact .inl (hcalm _ hold)
  · have htimely : Timely P n w.state due ph := by
      cases harms with
      | schedule => exact hfine
      | crash =>
          obtain ⟨st, hst, hr⟩ := hfine
          exact .inr ⟨st, hst, by simpa [hst] using hr⟩
    refine htimely.imp_right fun ⟨st, hst, hr⟩ => ⟨st, hstate.trans hst, hr.later le_rfl fun k => .inl ?_⟩
    rw [hrounds]

lemma armed_step (hi : RevealInv P σ₀ w) (hp : Piloted (Fine P) i s w) (hd : Driven i s w.log)
    (hexec : exec P o i s w.state = some (r, σ')) {c : Option ℕ}
    (hh : helm (w.answer i s r σ').log = some (n, c)) : Armed (Timely P) n σ' := by
  rcases helm_answer hp hd hexec hh with ⟨hc, rfl⟩ | ⟨hs, hfine⟩ | ⟨-, haside, ⟨c', hc'⟩ | ⟨rfl, hrun⟩⟩
  · exact hi.armed n c hc
  · exact armed_of_drives hfine hs hexec
  · exact armed_aside (hi.armed n c' hc') haside
  · exact armed_of_calm ((hi.resting n hrun).aside haside)

lemma reveal_step (hi : RevealInv P σ₀ w) (hp : RevealPre P σ₀ i s w)
    (ha : (seedReveal P σ₀).Answers i s w r w') : RevealInv P σ₀ w' := by
  obtain ⟨o, σ', hd, hexec, rfl⟩ := ha
  refine ⟨fun k x => stamped_step hi hp hd hexec, hi.reigns.answer hexec,
    hi.resting.answer hi.reigns hd hexec, fun n c => armed_step hi hp.toPiloted hd hexec,
    fun k x t => ran_step hi hp hexec, ⟨?_, ?_⟩, hi.due⟩
  · rintro j seed ⟨r', b, a, h⟩ hby
    obtain ⟨rfl, rfl, -⟩ := Entry.answered.inj h
    exact hp.reveal seed rfl hby
  · rintro j k d y ⟨r', b, a, h⟩ hst hy
    obtain ⟨rfl, rfl, -⟩ := Entry.answered.inj h
    exact hp.crash k d y rfl hst hy

lemma reveal_moves (hi : RevealInv P σ₀ w) (hm : (seedReveal P σ₀).Moves w w') : RevealInv P σ₀ w' := by
  have hreigns : Reigns P w' := hi.reigns.moves hm
  have hresting : Resting w'.state := hi.resting.moves hm
  have hnow := moves_now hm
  have hrounds := (moves_tables hm).rounds
  rcases hm with ⟨j, e, a, p, -, he, rfl⟩ | ⟨j, -, rfl⟩
  · refine ⟨fun k x hx => ?_, hreigns, hresting, fun n c hh => ?_, fun k x t hx ht => ?_, ⟨?_, ?_⟩, hi.due⟩
    · rw [hrounds] at hx
      exact (hi.stamped k x hx).mono hnow
    · obtain ⟨⟨c', hc'⟩, haside⟩ := helm_move he hh
      exact armed_aside (hi.armed n c' hc') haside
    · rw [hrounds] at hx
      exact (hi.ran k x t hx ht).cons
    · rintro j' seed ⟨r', b, a', h⟩
      cases h
    · rintro j' k d y ⟨r', b, a', h⟩
      cases h
  · refine ⟨hi.stamped, hreigns, hresting, hi.armed, fun k x t hx ht => (hi.ran k x t hx ht).cons, ⟨?_, ?_⟩, hi.due⟩
    · rintro j' seed ⟨r', b, a', h⟩
      cases h
    · rintro j' k d y ⟨r', b, a', h⟩
      cases h

lemma seedReveal_steered : Steered (seedReveal P σ₀) where
  act _ _ _ _ h := h
  env _ _ _ h := h.2
  pre _ _ _ hp := hp.stamps_drives

end Step

section Course

def Found (P : Params) (c : ℕ × Round) (σ : State) : Prop :=
  Stamped P σ.now c.2 ∧ ∃ x, σ.rounds.row c.1 = some x ∧ x.seedId = c.2.seedId ∧
    x.crashPoint = c.2.crashPoint ∧ x.startedAt = c.2.startedAt

def Knows (P : Params) (n : ℕ) (σ : State) : Point → Prop
  | .done => True
  | .began => Calm n σ
  | .enter ph => Calm n σ ∧ (ph ≠ .waiting → ∃ s, (σ.nodes n).state = some s ∧ Ready P σ s σ.now ph)
  | .created s => Calm n σ ∧ Ready P σ s σ.now .betting
  | .entered ph s => Calm n σ ∧ (σ.nodes n).state = some s ∧ Ready P σ s σ.now ph ∧
      (ph = .running → ∃ t, s.startedAt = some t ∧ t ≤ σ.now)
  | .written ph s => Calm n σ ∧ (σ.nodes n).state = some s ∧
      (∀ next, Precedes ph next → Ready P σ s σ.now next) ∧
      (ph = .running → Ready P σ s (σ.now + P.crashDelay s.crashPoint) .crashed)
  | .found c => Calm n σ ∧ Found P c σ
  | .dated c t => Calm n σ ∧ Found P c σ ∧ t ≤ σ.now
  | .resumed c t => Calm n σ ∧ Found P c σ ∧ t ≤ σ.now ∧ (σ.nodes n).state = some (memoryOf c)

def Learnt (P : Params) (σ₀ : State) (i : ℕ) (w : GameWorld) : Point → Prop
  | .began | .found _ | .dated _ _ => byCrash (lastBy i w.log) = false
  | .entered ph s | .written ph s => ph = .crashed → Elapsed P σ₀ s.roundId s.seedId w.log w.state
  | .resumed c _ => c.2.status = .crashed → Elapsed P σ₀ c.1 c.2.seedId w.log w.state
  | _ => True

def At (P : Params) (σ₀ : State) (n i : ℕ) (p : Point) (w : GameWorld) : Prop :=
  AtHelm P n i (Knows P n · p) w ∧ Learnt P σ₀ i w p

variable {p q : Point}

lemma Found.aside {c : ℕ × Round} (h : Found P c σ) (ha : Aside n σ σ') : Found P c σ' := by
  obtain ⟨hst, x, hx, hs, hc, ht⟩ := h
  refine ⟨hst.mono ha.now, ?_⟩
  rcases ha.round c.1 with hk | ⟨y, y', hy, hy', hs', hc', ht', -⟩
  · exact ⟨x, hk.trans hx, hs, hc, ht⟩
  · obtain rfl := Option.some.inj (hx.symm.trans hy)
    exact ⟨y', hy', hs'.trans hs, hc'.trans hc, ht'.trans ht⟩

lemma Knows.aside (h : Knows P n σ p) (ha : Aside n σ σ') : Knows P n σ' p := by
  have hstate {s : EngineState} (hs : (σ.nodes n).state = some s) : (σ'.nodes n).state = some s :=
    ha.state.trans hs
  cases p with
  | done => trivial
  | began => exact h.aside ha
  | enter ph =>
      exact ⟨h.1.aside ha, fun hph => (h.2 hph).imp fun s hs => ⟨hstate hs.1, hs.2.aside ha ha.now⟩⟩
  | created s => exact ⟨h.1.aside ha, h.2.aside ha ha.now⟩
  | entered ph s =>
      obtain ⟨hc, hs, hr, ht⟩ := h
      exact ⟨hc.aside ha, hstate hs, hr.aside ha ha.now,
        fun hph => (ht hph).imp fun _ h => ⟨h.1, h.2.trans ha.now⟩⟩
  | written ph s =>
      obtain ⟨hc, hs, hn, hr⟩ := h
      exact ⟨hc.aside ha, hstate hs, fun next hf => (hn next hf).aside ha ha.now,
        fun hph => (hr hph).aside ha (Nat.add_le_add_right ha.now _)⟩
  | found c => exact ⟨h.1.aside ha, h.2.aside ha⟩
  | dated c t => exact ⟨h.1.aside ha, h.2.1.aside ha, h.2.2.trans ha.now⟩
  | resumed c t =>
      obtain ⟨hc, hf, ht, hs⟩ := h
      exact ⟨hc.aside ha, hf.aside ha, ht.trans ha.now, hstate hs⟩

lemma elapsed_of_row {x : Round} (hi : RevealInv P σ₀ w) (hx : w.state.rounds.row k = some x)
    (ht : x.startedAt = some t) (hdue : t + P.crashDelay x.crashPoint ≤ w.state.now) :
    Elapsed P σ₀ k x.seedId w.log w.state := by
  have hfresh := (hi.stamped k x hx).fresh
  refine ⟨x, t, hx, rfl, ht, hi.ran k x t hx ht, hdue, fun h => ?_, fun h => ?_⟩
  · rw [hfresh (.inl h)] at ht
    cases ht
  · rw [hfresh (.inr h)] at ht
    cases ht

lemma Ready.elapsed (h : Ready P w.state st w.state.now .crashed) (hi : RevealInv P σ₀ w) :
    Elapsed P σ₀ st.roundId st.seedId w.log w.state := by
  obtain ⟨x, hx, hs, hc, hif⟩ := h (by decide)
  obtain ⟨t, ht, hdue⟩ : ∃ t, x.startedAt = some t ∧ t + P.crashDelay st.crashPoint ≤ w.state.now := by
    simpa using hif
  exact hs ▸ elapsed_of_row hi hx ht (hc ▸ hdue)

lemma Elapsed.later (h : Elapsed P σ₀ k seed w.log w.state) (hi' : RevealInv P σ₀ w')
    (hnow : w.state.now ≤ w'.state.now) (hrow : ∀ x t, w.state.rounds.row k = some x → x.startedAt = some t →
      ∃ x', w'.state.rounds.row k = some x' ∧ x'.seedId = x.seedId ∧ x'.crashPoint = x.crashPoint ∧
        x'.startedAt = some t) : Elapsed P σ₀ k seed w'.log w'.state := by
  obtain ⟨x, t, hx, rfl, ht, -, hdue, -⟩ := h
  obtain ⟨x', hx', hs, hc, ht'⟩ := hrow x t hx ht
  exact hs ▸ elapsed_of_row hi' hx' ht' (hc ▸ hdue.trans hnow)

lemma elapsed_answers (h : Elapsed P σ₀ k seed w.log w.state) (hp : RevealPre P σ₀ i s w)
    (ha : (seedReveal P σ₀).Answers i s w r w') (hi' : RevealInv P σ₀ w') :
    Elapsed P σ₀ k seed w'.log w'.state := by
  obtain ⟨o, σ', hd, hexec, rfl⟩ := ha
  refine h.later hi' (exec_now hexec).ge fun x t hx ht => ?_
  rcases exec_roundChange hexec k with hk | ⟨rfl, -⟩ | ⟨hold, hrow⟩ | ⟨hold, hrow⟩
  · exact ⟨x, hk.trans hx, rfl, rfl, ht⟩
  · exact absurd (w.state.rounds.fresh _ x hx) (lt_irrefl _)
  · rename_i d old
    obtain rfl := Option.some.inj (hx.symm.trans hold)
    refine ⟨_, hrow, rfl, rfl, ?_⟩
    cases hst : d.startedAt with
    | none => simpa [RoundData.apply, hst] using ht
    | some a =>
        have hdrive : Stmt.drives (.updateRound k d) := by
          simp [Stmt.drives, hp.stamps k d rfl (by simp [hst]), Phase.isOpen]
        obtain ⟨m, hm, -⟩ := hd hdrive
        rw [((hp.fine hdrive m hm fun m' h' => by cases h').2 x hold).2 (by simp [hst])] at ht
        cases ht
  · obtain rfl := Option.some.inj (hx.symm.trans hold)
    exact ⟨_, hrow, rfl, rfl, ht⟩

lemma stable_elapsed : (seedReveal P σ₀).Stable i fun w => Elapsed P σ₀ k seed w.log w.state := by
  intro w w' hd h
  rcases hd with ⟨-, hi', hm | ⟨j, s, r, -, -, hp, ha⟩⟩
  · refine h.later hi' (moves_now hm) fun x t hx ht => ⟨x, ?_, rfl, rfl, ht⟩
    rw [(moves_tables hm).rounds, hx]
  · exact elapsed_answers h hp ha hi'

lemma stable_at (p : Point) : (seedReveal P σ₀).Stable i (At P σ₀ n i p) := by
  refine Contract.Stable.and (seedReveal_steered.stable fun w w' _ _ _ ha h => h.aside ha) ?_
  cases p with
  | began | found | dated => exact Contract.stable_lastBy fun x => byCrash x = false
  | entered | written | resumed => exact fun w w' hd h hph => stable_elapsed w w' hd (h hph)
  | _ => exact Contract.stable_const True

lemma RevealPre.of_piloted (hp : Piloted (Fine P) i s w) (hu : ∀ k d, s ≠ .updateRound k d)
    (hr : ∀ seed, s ≠ .revealSeed seed) : RevealPre P σ₀ i s w :=
  ⟨hp, fun seed h => absurd h (hr seed), fun k d _ h => absurd h (hu k d)⟩

lemma RevealPre.of_not_drives (hd : s.drives = false) (hu : ∀ k d, s ≠ .updateRound k d)
    (hr : ∀ seed, s ≠ .revealSeed seed) : RevealPre P σ₀ i s w := by
  refine .of_piloted (.of_not_drives hd ?_) hu hr
  cases s with
  | updateRound k d => exact absurd rfl (hu k d)
  | _ => rfl

lemma at_done (h : At P σ₀ n i p w) : At P σ₀ n i .done w := ⟨h.1.mono fun _ _ => trivial, trivial⟩

lemma leads_aside (hd : s.drives = false) (hb : ∀ m, s ≠ .beginStart m)
    (hby : ∀ j r b a, byCrash (some (.answered j s r b a)) = false)
    (hpre : ∀ w, RevealInv P σ₀ w → At P σ₀ n i p w → RevealPre P σ₀ i s w) :
    (seedReveal P σ₀).Leads i s (At P σ₀ n i p) (At P σ₀ n i p) fun _ => At P σ₀ n i p := by
  intro w hi hw
  have hp := hpre w hi hw
  refine ⟨hp, fun r w' ha hi' => ?_⟩
  have hby' : byCrash (lastBy i w'.log) = false := by
    obtain ⟨o, a, -, -, rfl⟩ := ha
    rw [World.answer_log, lastBy_answered_self]
    exact hby i r _ _
  have hat : At P σ₀ n i p w' := by
    refine ⟨hw.1.answers ha hb fun _ h => Knows.aside h (seedReveal_steered.answers ha hp hd), ?_⟩
    cases p with
    | began | found | dated => exact hby'
    | entered | written | resumed => exact fun hph => elapsed_answers (hw.2 hph) hp ha hi'
    | _ => trivial
  exact ⟨hat, fun _ _ => hat⟩

lemma byCrash_looks (hs : s.looks n) (j : ℕ) (r : game.Reply s) (b a : State) :
    byCrash (some (.answered j s r b a)) = false := by
  cases s with
  | updateRound k d =>
      have hst : d.status = some .completed := by simp_all
      simp [byCrash, hst]
  | readState m => cases hs
  | _ => rfl

lemma pre_looks (hs : s.looks n) : RevealPre P σ₀ i s w := by
  refine ⟨.of_looks hs, fun seed h => ?_, fun k d y h hst => ?_⟩
  · subst h
    cases hs
  · subst h
    simp [hst] at hs

lemma leads_looks (hs : s.looks n) (p : Point) :
    (seedReveal P σ₀).Leads i s (At P σ₀ n i p) (At P σ₀ n i p) fun _ => At P σ₀ n i p :=
  leads_aside (Stmt.looks_drives hs) (by rintro m rfl; cases hs) (byCrash_looks hs) fun _ _ _ => pre_looks hs

lemma leads_to {q : s.Result → Point} (hb : ∀ m, s ≠ .beginStart m)
    (hpre : ∀ w, RevealInv P σ₀ w → At P σ₀ n i p w → RevealPre P σ₀ i s w)
    (hk : ∀ w σ' a, RevealInv P σ₀ w → Knows P n w.state p → exec P .ok i s w.state = some (.ok a, σ') →
      Knows P n σ' (q a))
    (hl : ∀ w w' a, RevealInv P σ₀ w' → At P σ₀ n i p w → RevealPre P σ₀ i s w →
      (seedReveal P σ₀).Answers i s w (.ok a) w' → Learnt P σ₀ i w' (q a)) (hv : s.isView = false) :
    (seedReveal P σ₀).Leads i s (At P σ₀ n i p) (At P σ₀ n i .done) fun a => At P σ₀ n i (q a) := by
  intro w hi hw
  refine ⟨hpre w hi hw, fun r w' ha hi' => ⟨⟨hw.1.answers ha hb fun _ _ => trivial, trivial⟩, ?_⟩⟩
  rintro a rfl
  refine ⟨hw.1.answers ha hb fun _ hkn => ?_, hl w w' a hi' hw (hpre w hi hw) ha⟩
  obtain ⟨o, σ', -, hexec, rfl⟩ := ha
  exact hk w σ' a hi hkn (perform_of_ok hexec hv)

lemma RevealPre.of_knows (h : At P σ₀ n i p w) (hu : ∀ k d, s ≠ .updateRound k d)
    (hr : ∀ seed, s ≠ .revealSeed seed) (hf : Knows P n w.state p → Fine P n w.state s) :
    RevealPre P σ₀ i s w :=
  .of_piloted (.of_helm h.1 (fun k d heq => absurd heq (hu k d)) hf) hu hr

lemma leads_schedule {ms : ℕ} (hf : ∀ σ, Knows P n σ p → Fine P n σ (.schedule n ms ph)) :
    (seedReveal P σ₀).Leads i (.schedule n ms ph) (At P σ₀ n i p) (At P σ₀ n i .done)
      fun _ => At P σ₀ n i .done :=
  leads_to (q := fun _ => .done) nofun (fun _ _ hw => .of_knows hw nofun nofun (hf _))
    (fun _ _ _ _ _ _ => trivial) (fun _ _ _ _ _ _ _ => trivial) rfl

lemma knows_created {id crash ends : ℕ} (h : Knows P n σ (.enter .waiting))
    (hexec : exec P o i (.createRound seed crash ends) σ = some (.ok id, σ')) :
    Knows P n σ' (.created ⟨id, seed, .waiting, ends, none, crash⟩) := by
  exact ⟨calm_of_nodes rfl hexec h.1, fun _ => ⟨_, (exec_createRound hexec).2, rfl, rfl, rfl⟩⟩

lemma knows_opened {r : game.Reply (.setState n st)} (h : Knows P n σ (.created st))
    (hexec : exec P o i (.setState n st) σ = some (r, σ')) : Knows P n σ' (.written .waiting st) := by
  obtain rfl := exec_setState hexec
  refine ⟨fun t ht => h.1 t (by simpa using ht), by simp, fun next hf => ?_, nofun⟩
  cases hf
  exact h.2

lemma knows_entered {ms : ℕ} (hph : ph ≠ .waiting) (h : Knows P n σ (.enter ph))
    (hexec : exec P o i (.enterPhase n ph ms) σ = some (.ok st, σ')) : Knows P n σ' (.entered ph st) := by
  obtain ⟨s, hs, hr⟩ := h.2 hph
  obtain ⟨s', hs', rfl, rfl⟩ := exec_enterPhase hexec
  obtain rfl := Option.some.inj (hs.symm.trans hs')
  refine ⟨fun t ht => h.1 t (by simpa using ht), by simp, hr, fun hrun => ⟨σ.now, by simp [hrun], le_rfl⟩⟩

lemma fine_written (hph : ph ≠ .waiting) (h : Knows P n σ (.entered ph st)) :
    Fine P n σ (.updateRound st.roundId (ph.data st)) := by
  obtain ⟨hcalm, -, hr, -⟩ := h
  refine ⟨hcalm, fun x hx => ?_⟩
  obtain ⟨y, hy, hs, hc, hif⟩ := hr hph
  obtain rfl := Option.some.inj (hx.symm.trans hy)
  cases ph with
  | waiting => exact absurd rfl hph
  | betting =>
      have hnone : x.startedAt = none := by simpa using hif
      exact ⟨⟨fun _ => by simp [Phase.data, RoundData.apply, hnone], by simp [Phase.data, RoundData.apply]⟩,
        by simp [Phase.data]⟩
  | running =>
      have hnone : x.startedAt = none := by simpa using hif
      exact ⟨⟨by simp [Phase.data, RoundData.apply], by simp [Phase.data, RoundData.apply]⟩, fun _ => hnone⟩
  | crashed | settling =>
      have hdue : ∃ a, x.startedAt = some a ∧ a + P.crashDelay st.crashPoint ≤ σ.now := by simpa using hif
      exact ⟨⟨by simp [Phase.data, RoundData.apply], fun _ => by
        simpa [Phase.data, RoundData.apply, hc] using hdue⟩, by simp [Phase.data]⟩
  | completed =>
      exact ⟨⟨by simp [Phase.data, RoundData.apply], by simp [Phase.data, RoundData.apply]⟩, by simp [Phase.data]⟩

lemma knows_written {u : Unit} (hph : ph ≠ .waiting) (h : Knows P n σ (.entered ph st))
    (hexec : exec P o i (.updateRound st.roundId (ph.data st)) σ = some (.ok u, σ')) :
    Knows P n σ' (.written ph st) := by
  obtain ⟨hcalm, hst, hr, hrun⟩ := h
  obtain ⟨x, hx, hs, hc, hif⟩ := hr hph
  obtain ⟨y, hy, hrow⟩ := exec_updateRound hexec
  obtain rfl := Option.some.inj (hx.symm.trans hy)
  have hnodes := exec_nodes hexec rfl
  refine ⟨calm_of_nodes rfl hexec hcalm, hnodes ▸ hst, fun next hf _ => ⟨_, hrow, hs, hc, ?_⟩,
    fun hph _ => ⟨_, hrow, hs, hc, ?_⟩⟩
  · rw [exec_now hexec]
    cases hf with
    | waiting => exact absurd rfl hph
    | betting | crashed | settling | completed => simpa [Phase.data, RoundData.apply] using hif
  · obtain ⟨t, ht, hle⟩ := hrun hph
    subst hph
    have hstart : (Phase.data st .running).startedAt = some t := ht
    rw [if_neg (by decide)]
    exact ⟨t, by simp [RoundData.apply, hstart], by rw [exec_now hexec]; omega⟩

lemma leads_written (hph : ph ≠ .waiting) : (seedReveal P σ₀).Leads i (.updateRound st.roundId (ph.data st))
    (At P σ₀ n i (.entered ph st)) (At P σ₀ n i .done) fun _ => At P σ₀ n i (.written ph st) := by
  refine leads_to (q := fun _ => .written ph st) nofun (fun w hi hw => ?_)
    (fun w σ' u _ hk hexec => knows_written hph hk hexec) (fun w w' u hi' hw hp ha => ?_) rfl
  · refine ⟨.of_helm hw.1 (fun _ _ => Phase.data_stamps) (fine_written hph), fun _ h => (by cases h),
      fun k d y h hst hy => ?_⟩
    obtain ⟨rfl, rfl⟩ := Stmt.updateRound.inj h
    have hcrash : ph = .crashed := by cases ph <;> simp_all [Phase.data]
    obtain ⟨x, t, hx, hs, hrest⟩ := hw.2 hcrash
    obtain rfl := Option.some.inj (hx.symm.trans hy)
    exact ⟨x, t, hx, rfl, hrest⟩
  · exact fun hcrash => elapsed_answers (hw.2 hcrash) hp ha hi'

lemma knows_of_answers (hw : At P σ₀ n i p w) (ha : (seedReveal P σ₀).Answers i s w r w') (hs : s.drives) :
    Knows P n w.state p := by
  obtain ⟨o, a, hd, -, -⟩ := ha
  obtain ⟨m, hm, -⟩ := hd hs
  exact (hw.1.2 m hm).2

lemma found_ready {c : ℕ × Round} (h : Found P c σ) (hst : t ≤ σ.now) {ms : ℕ} (hr : Rearms P c t ms ph) :
    Ready P σ (memoryOf c) (σ.now + ms) ph := by
  obtain ⟨hstamp, x, hx, hs, hc, ha⟩ := h
  refine fun _ => ⟨x, hx, hs, hc, ?_⟩
  have hover (hst : c.2.status = .crashed ∨ c.2.status = .settling) :
      ∃ a, x.startedAt = some a ∧ a + P.crashDelay c.2.crashPoint ≤ σ.now + ms := by
    obtain ⟨a, hsa, hdue⟩ := hstamp.past hst
    exact ⟨a, ha.trans hsa, by omega⟩
  cases hr with
  | waiting h => simpa [ha] using hstamp.fresh (.inl h)
  | betting h => simpa [ha] using hstamp.fresh (.inr h)
  | running h hsa hlt =>
      rw [if_neg (by decide)]
      exact ⟨_, ha.trans hsa, by change _ + P.crashDelay c.2.crashPoint ≤ _; omega⟩
  | crashed h => simpa using hover (.inl h)
  | settling h => simpa using hover (.inr h)

lemma leads_resumed (c : ℕ × Round) (t : ℕ) : (seedReveal P σ₀).Leads i (.setState n (memoryOf c))
    (At P σ₀ n i (.dated c t)) (At P σ₀ n i .done) fun _ => At P σ₀ n i (.resumed c t) := by
  refine leads_to (q := fun _ => .resumed c t) nofun
    (fun w _ hw => .of_knows hw nofun nofun fun h => ⟨h.1, trivial⟩) (fun w σ' u _ hk hexec => ?_)
    (fun w w' u hi' hw _ ha hcrash => ?_) rfl
  · obtain rfl := exec_setState hexec
    exact ⟨fun t ht => hk.1 t (by simpa using ht), hk.2.1, hk.2.2, by simp⟩
  · obtain ⟨-, ⟨hstamp, x, hx, hs, hc, hsa⟩, -⟩ := knows_of_answers hw ha rfl
    obtain ⟨a, hstart, hdue⟩ := hstamp.past (.inl hcrash)
    obtain ⟨o, σ', -, hexec, rfl⟩ := ha
    obtain rfl := exec_setState hexec
    exact hs ▸ elapsed_of_row hi' hx (hsa.trans hstart) (hc ▸ hdue)

lemma leads_began : (seedReveal P σ₀).Leads i (.beginStart n) (At P σ₀ n i .done) (At P σ₀ n i .done)
    fun b w => At P σ₀ n i .done w ∧ (b = true → At P σ₀ n i .began w) := by
  intro w hi hw
  obtain ⟨hp, hk⟩ := AtHelm.leads_began (C := seedReveal P σ₀) (F := Calm n)
    (fun w => .of_not_drives rfl nofun nofun) (fun w w' hi ⟨o, σ', hr, hexec, hw'⟩ => by
      obtain ⟨hrun, rfl⟩ := exec_beginStart hexec
      rw [hw']
      simpa [Calm] using hi.resting n hrun) w hi hw.1
  refine ⟨hp, fun r w' ha hi' => ?_⟩
  obtain ⟨hdone, hbegan⟩ := hk r w' ha hi'
  refine ⟨⟨hdone, trivial⟩, fun b hb => ⟨⟨hdone, trivial⟩, fun htrue => ⟨(hbegan b hb).2 htrue, ?_⟩⟩⟩
  obtain ⟨o, σ', -, -, rfl⟩ := ha
  simp [Learnt, byCrash]

lemma leads_found : (seedReveal P σ₀).Leads i .findOpenRounds (At P σ₀ n i .began) (At P σ₀ n i .done)
    fun rounds w => (rounds = [] → At P σ₀ n i (.enter .waiting) w) ∧
      ∀ c stale, rounds = c :: stale → c.2.status.isOpen ∧ At P σ₀ n i (.found c) w := by
  intro w hi hw
  have hlooks : (seedReveal P σ₀).Leads i .findOpenRounds (At P σ₀ n i .began) (At P σ₀ n i .began)
      fun _ => At P σ₀ n i .began := leads_looks rfl .began
  obtain ⟨hp, hk⟩ := hlooks w hi hw
  refine ⟨hp, fun r w' ha hi' => ⟨at_done (hk r w' ha hi').1, ?_⟩⟩
  rintro rounds rfl
  have hbegan := (hk _ w' ha hi').1
  refine ⟨fun _ => ⟨hbegan.1.mono fun σ h => ⟨h, fun h => absurd rfl h⟩, trivial⟩, fun c stale hcons => ?_⟩
  subst hcons
  obtain ⟨o, σ', -, hexec, rfl⟩ := ha
  obtain ⟨hrounds, rfl⟩ := exec_findOpenRounds hexec
  obtain ⟨hrow, hopen⟩ := mem_openRounds.1 (hrounds ▸ List.mem_cons_self : c ∈ w.state.openRounds)
  refine ⟨hopen, ⟨hbegan.1.1, fun m hm => ?_⟩, hbegan.2⟩
  exact ⟨(hbegan.1.2 m hm).1, (hbegan.1.2 m hm).2, hi.stamped _ _ hrow, c.2, hrow, rfl, rfl, rfl⟩

lemma leads_closed (c : ℕ × Round) :
    (seedReveal P σ₀).Leads i (.updateRound c.1 { status := some .completed, settles := true })
      (At P σ₀ n i (.found c)) (At P σ₀ n i .done) fun _ => At P σ₀ n i (.enter .waiting) := by
  intro w hi hw
  have hlooks : (seedReveal P σ₀).Leads i (.updateRound c.1 { status := some .completed, settles := true })
      (At P σ₀ n i (.found c)) (At P σ₀ n i (.found c)) fun _ => At P σ₀ n i (.found c) :=
    leads_looks rfl (.found c)
  obtain ⟨hp, hk⟩ := hlooks w hi hw
  refine ⟨hp, fun r w' ha hi' => ?_⟩
  have hat := (hk r w' ha hi').1
  exact ⟨at_done hat, fun _ _ => ⟨hat.1.mono fun σ h => ⟨h.1, fun h => absurd rfl h⟩, trivial⟩⟩

lemma leads_dated (c : ℕ × Round) : (seedReveal P σ₀).Leads i .dateNow (At P σ₀ n i (.found c))
    (At P σ₀ n i .done) fun t => At P σ₀ n i (.dated c t) := by
  intro w hi hw
  have hlooks : (seedReveal P σ₀).Leads i .dateNow (At P σ₀ n i (.found c)) (At P σ₀ n i (.found c))
      fun _ => At P σ₀ n i (.found c) := leads_looks rfl (.found c)
  obtain ⟨hp, hk⟩ := hlooks w hi hw
  refine ⟨hp, fun r w' ha hi' => ?_⟩
  have hat := (hk r w' ha hi').1
  refine ⟨at_done hat, fun t ht => ⟨⟨hat.1.1, fun m hm => ?_⟩, hat.2⟩⟩
  subst ht
  obtain ⟨rfl, hc, hf⟩ := hat.1.2 m hm
  refine ⟨rfl, hc, hf, ?_⟩
  obtain ⟨o, σ', -, hexec, rfl⟩ := ha
  obtain ⟨rfl, rfl⟩ : w.state.now = t ∧ w.state = σ' := by
    simpa [perform] using perform_of_local hexec rfl rfl
  exact le_rfl

lemma leads_entered {ms : ℕ} (hph : ph ≠ .waiting) :
    (seedReveal P σ₀).Leads i (.enterPhase n ph ms) (At P σ₀ n i (.enter ph)) (At P σ₀ n i .done)
      fun s => At P σ₀ n i (.entered ph s) := by
  refine leads_to nofun (fun _ _ hw => .of_knows hw nofun nofun fun h => ⟨h.1, trivial⟩)
    (fun _ _ _ _ hk hexec => knows_entered hph hk hexec) (fun w w' s hi' hw _ ha hcrash => ?_) rfl
  have hk := knows_of_answers hw ha rfl
  obtain ⟨o, σ', -, hexec, rfl⟩ := ha
  obtain ⟨-, -, hr, -⟩ := knows_entered hph hk hexec
  subst hcrash
  exact Ready.elapsed hr hi'

lemma pre_reveal (h : byCrash (lastBy i w.log) → ∃ k, Elapsed P σ₀ k seed w.log w.state) :
    RevealPre P σ₀ i (.revealSeed seed) w := by
  refine ⟨.of_not_drives rfl rfl, fun seed' h' => ?_, fun _ _ _ h => (by cases h)⟩
  obtain rfl := Stmt.revealSeed.inj h'
  exact h

lemma leads_revealed (h : ∀ w, At P σ₀ n i p w → byCrash (lastBy i w.log) →
      ∃ k, Elapsed P σ₀ k seed w.log w.state) :
    (seedReveal P σ₀).Leads i (.revealSeed seed) (At P σ₀ n i p) (At P σ₀ n i p) fun _ => At P σ₀ n i p :=
  leads_aside rfl nofun (fun _ _ _ _ => rfl) fun w _ hw => pre_reveal (h w hw)

lemma leads_settled {k : Option ℕ} : (seedReveal P σ₀).Leads i (.emitSettle n k) (At P σ₀ n i p)
    (At P σ₀ n i p) fun _ => At P σ₀ n i p :=
  leads_aside rfl nofun (fun _ _ _ _ => rfl) fun _ _ _ => .of_not_drives rfl nofun nofun

lemma pre_reads : RevealPre P σ₀ i (.readState n) w :=
  .of_piloted ⟨nofun, fun _ _ _ h => absurd rfl (h n)⟩ nofun nofun

lemma leads_reread (c : ℕ × Round) (t : ℕ) : (seedReveal P σ₀).Leads i (.readState n)
    (At P σ₀ n i (.resumed c t)) (At P σ₀ n i .done)
      fun s w => (s.map (·.seedId)).getD c.2.seedId = c.2.seedId ∧ At P σ₀ n i (.resumed c t) w := by
  intro w hi hw
  have hp : RevealPre P σ₀ i (.readState n) w := pre_reads
  refine ⟨hp, fun r w' ha hi' => ⟨⟨hw.1.answers ha nofun fun _ _ => trivial, trivial⟩, ?_⟩⟩
  rintro s rfl
  obtain ⟨-, -, -, hst⟩ := knows_of_answers hw ha rfl
  have hsame : w'.state = w.state ∧ s = (w.state.nodes n).state := by
    obtain ⟨o, σ', -, hexec, rfl⟩ := ha
    obtain ⟨hs, rfl⟩ := exec_readState hexec
    exact ⟨rfl, Except.ok.inj hs⟩
  refine ⟨by rw [hsame.2, hst]; rfl, hw.1.answers ha nofun fun _ h => hsame.1 ▸ h, fun hcrash => ?_⟩
  exact elapsed_answers (hw.2 hcrash) hp ha hi'

lemma course (n i : ℕ) : Course (seedReveal P σ₀) n i (At P σ₀ n i) where
  stable := stable_at
  done _ _ h := at_done h
  looks p s hs _ := leads_looks hs p
  reads ph := leads_to (q := fun _ => .enter ph) nofun (fun _ _ _ => pre_reads)
    (fun w σ' _ _ hk hexec => (exec_readState hexec).2 ▸ hk) (fun _ _ _ _ _ _ _ => trivial) rfl
  stop := leads_aside rfl nofun (fun _ _ _ _ => rfl) fun _ _ _ => .of_not_drives rfl nofun nofun
  lost := leads_aside rfl nofun (fun _ _ _ _ => rfl) fun _ _ _ => .of_not_drives rfl nofun nofun
  retry := leads_schedule fun _ h => ⟨h.1, .inl rfl⟩
  created seed crash ends := leads_to nofun (fun _ _ hw => .of_knows hw nofun nofun fun h => ⟨h.1, trivial⟩)
    (fun _ _ _ _ hk hexec => knows_created hk hexec) (fun _ _ _ _ _ _ _ => trivial) rfl
  opened s := leads_to nofun (fun _ _ hw => .of_knows hw nofun nofun fun h => ⟨h.1, trivial⟩)
    (fun _ _ _ _ hk hexec => knows_opened hk hexec) (fun _ _ _ _ _ _ _ => nofun) rfl
  entered _ _ hph := leads_entered hph
  written ph s hph := leads_written hph
  revealed s := by
    refine (leads_revealed fun w hw _ => ?_).imp fun _ => at_done
    exact ⟨s.roundId, hw.2 rfl⟩
  settled _ := leads_settled.imp fun _ => at_done
  armed ph next s hf := leads_schedule fun σ h => ⟨h.1,
    .inr ⟨s, h.2.1, (h.2.2.1 next hf).later (Nat.le_add_right _ _) fun _ => .inl rfl⟩⟩
  armedCrash s := leads_to (q := fun _ => .done) nofun
    (fun _ _ hw => .of_knows hw nofun nofun fun h => ⟨h.1, s, h.2.1, h.2.2.2 rfl⟩)
    (fun _ _ _ _ _ _ => trivial) (fun _ _ _ _ _ _ _ => trivial) rfl
  began := leads_began
  found := leads_found
  closedExtra c seed := leads_revealed fun w hw hby => by
    have hlast : byCrash (lastBy i w.log) = false := hw.2
    rw [hlast] at hby
    cases hby
  settledExtra _ _ := leads_settled
  closed := leads_closed
  dated := leads_dated
  resumed := leads_resumed
  rearmed c t ms ph hr := leads_schedule fun σ h =>
    ⟨h.1, .inr ⟨_, h.2.2.2, found_ready h.2.1 h.2.2.1 hr⟩⟩
  overdue c t a w hst ha hdue hw := by
    refine ⟨hw.1.mono fun σ ⟨hc, ⟨_, x, hx, hs, hcp, hsa⟩, ht, hstate⟩ => ?_, trivial⟩
    refine ⟨hc, fun _ => ⟨_, hstate, fun _ => ⟨x, hx, hs, hcp, ?_⟩⟩⟩
    rw [if_neg (by decide)]
    exact ⟨a, hsa.trans ha, hdue.trans ht⟩
  reread c t hst w hi hw := by
    obtain ⟨hp, hk⟩ := leads_reread c t w hi hw
    refine ⟨hp, fun r w' ha hi' => ⟨(hk r w' ha hi').1, fun s hs => ?_⟩⟩
    obtain ⟨hseed, hat⟩ := (hk r w' ha hi').2 s hs
    rw [hseed]
    refine ⟨(leads_revealed (p := .resumed c t) fun w hw _ => ?_).imp fun _ => at_done, hat⟩
    exact ⟨c.1, hw.2 hst⟩
  settledAgain _ _ _ := leads_settled.imp fun _ => at_done

lemma reveal_sound : (seedReveal P σ₀).Sound := by
  refine sound_of_course (J := fun n i => At P σ₀ n i) (fun _ => trivial) (fun _ _ _ => trivial) course
    (fun _ _ _ _ _ hi hp ha => reveal_step hi hp ha) (fun _ _ => reveal_moves)
    (fun n k e w a p hi hr hlog he hnot => ⟨.of_call hi.reigns hlog hr.2 he hnot, trivial⟩)
    fun n k w a p due ph hi hr hlog he htimer hdue hrun => ⟨.of_timer hi.reigns hlog hr.2 he fun c hc => ?_, trivial⟩
  obtain ⟨due', ph', htimer', -, -, -, rfl⟩ := environment_fired he
  refine ⟨by simp [Calm], fun hph => ?_⟩
  obtain ⟨s, hs, hready⟩ := (hi.armed n c hc due ph htimer).resolve_left hph
  exact ⟨s, by simpa using hs, hready.later hdue fun _ => .inl rfl⟩

end Course

/-- Where the engine is driven by its current routine, no seed is revealed and no round is crashed too early.
The engines start idle, over rounds that are stamped as they should be. -/
theorem revealed_after_own_crash {c : GameConfig} (hidle : ∀ n, (σ.nodes n).timer = none)
    (hrounds : ∀ k x, σ.rounds.row k = some x → Stamped P σ.now x)
    (h : steered.Reaches (system P) (Config.initial σ) c) {later earlier : List GameEntry} {x : GameEntry}
    (hlog : c.world.log = later ++ x :: earlier) : Due P σ x earlier := by
  have hinitial : RevealInv P σ ⟨σ, []⟩ := by
    refine ⟨hrounds, reigns_initial, fun n _ t ht => ?_, nofun, fun k x t hx ht => .inl ⟨x, hx, ht⟩, trivial⟩
    rw [hidle n] at ht
    cases ht
  have hgood : c.Good (seedReveal P σ) := (Config.good_initial hinitial).reaches reveal_sound h.started.1
  exact hgood.inv.due.split hlog

section Runs

open Scenario

def booted : State :=
  { idle .running with
    rounds := (∅ : Records Round Round.seedId).create { Scenario.round .running with startedAt := some 0 } rfl
    nodes := fun _ => ⟨none, none, false, []⟩ }

/-- The engine starts, resumes the round and arms its crash, which is due after 10 s. -/
def resumed : List (Machine.Label Event Oracle) :=
  .env (.call (.start 0)) :: acts 0 11 ++ [.env (.tick 10000), .env (.timer 0)]

/-- The crash hangs at the fence until the deadline gives it up; a new round opens; then it goes on. -/
def hungCrash : List (Machine.Label Event Oracle) :=
  resumed ++ act 1 :: .env (.tick 10000) :: .env (.deadline 0 1) :: .env (.tick 1500) :: .env (.timer 0) ::
    act 2 :: .act 2 (.seed (some (1, 300))) :: acts 2 6 ++ acts 1 4

lemma not_due_of_unstarted {x : GameEntry} {earlier : List GameEntry} (hx : x.Issues i (Stmt.revealSeed 1))
    (hby : byCrash (lastBy i earlier)) (hnext : x.before.rounds.next = 2)
    (hfirst : (x.before.rounds.row 0).map (·.seedId) = some 0)
    (hsecond : (x.before.rounds.row 1).map (·.startedAt) = some none) : ¬ Due P σ₀ x earlier := by
  intro hdue
  obtain ⟨k, z, t, hz, hs, ht, -⟩ := hdue.1 i 1 hx hby
  have hk : k < 2 := hnext ▸ x.before.rounds.fresh k z hz
  rcases (by omega : k = 0 ∨ k = 1) with rfl | rfl
  · rw [hz] at hfirst
    cases hs.symm.trans (Option.some.inj hfirst)
  · rw [hz] at hsecond
    cases ht.symm.trans (Option.some.inj hsecond)

/-- The late crash takes the new round for its own: it crashes it before its betting opens, and reveals its
seed. -/
theorem late_crash_reveals_successor : ∃ c : GameConfig,
    Rule.free.Reaches (system (params false false)) (Config.initial booted) c ∧
      ∃ x earlier, c.world.log = x :: earlier ∧ x.Issues 1 (Stmt.revealSeed 1) ∧
        (∃ y, x.before.rounds.row 1 = some y ∧ y.seedId = 1 ∧ y.startedAt = none) ∧
        ¬ Due (params false false) booted x earlier := by
  have hrun : (system (params false false)).run (Config.initial booted) hungCrash = some _ := rfl
  refine ⟨_, Rule.reaches_of_run Rule.obeys_free hrun, _, _, rfl, ⟨_, _, _, rfl⟩, ⟨_, rfl, rfl, rfl⟩, ?_⟩
  exact not_due_of_unstarted ⟨_, _, _, rfl⟩ (by decide) rfl rfl rfl

/-- A crash that does not hang reveals the seed of its own round, 10 s after it has started. -/
theorem crash_in_time : ∃ c : GameConfig,
    (∀ later x earlier, c.world.log = later ++ x :: earlier → Due (params false false) booted x earlier) ∧
      ∃ x ∈ c.world.log, x.Issues 1 (Stmt.revealSeed 0) := by
  have hrun : (system (params false false)).run (Config.initial booted) (resumed ++ acts 1 5) = some _ := rfl
  have hrounds (k : ℕ) (x : Round) (hx : booted.rounds.row k = some x) : Stamped (params false false) 0 x := by
    have hrow : booted.rounds.row k = if k = 0 then some { Scenario.round .running with startedAt := some 0 }
        else none := rfl
    rw [hrow] at hx
    split_ifs at hx
    obtain rfl := Option.some.inj hx
    exact ⟨by simp [Scenario.round], by simp [Scenario.round]⟩
  exact ⟨_, fun later x earlier => revealed_after_own_crash (fun _ => rfl) hrounds
    (Rule.reaches_of_run (R := steered) (by decide) hrun), _, List.mem_cons_self, _, _, _, rfl⟩

end Runs

end VaultRun.Safety.SeedReveal