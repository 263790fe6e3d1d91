import VaultRun.Game.Course

/-!
What the current routine of an engine knows at each point of its course, where the knowledge is about the
state alone: the statements that look around keep it, and each of the others leads from point to point.
Between two routines the timer of the engine carries what the next one starts from.
-/

namespace VaultRun.Game

open VaultRun.Concurrency VaultRun.Data Program

variable {P : Params} {C : Contract (system P)} {n i k : ℕ} {w w' : GameWorld} {s : Stmt} {r : game.Reply s}
  {o : Oracle} {σ σ' : State} {F F' : State → Prop} {Fine : ℕ → State → Stmt → Prop}

/-- A start is stamped on a running round, and the current routine drives the engine as `Fine` asks. -/
structure Piloted (Fine : ℕ → State → Stmt → Prop) (i : ℕ) (s : Stmt) (w : GameWorld) : Prop where
  stamps : ∀ k d, s = .updateRound k d → d.startedAt.isSome → d.status = some .running
  fine : s.drives → ∀ n, Steers n i w.log → (∀ m, s ≠ .readState m) → Fine n w.state s

lemma Piloted.stamps_drives (h : Piloted Fine i s w) (hs : s.stampsStart) : s.drives := by
  cases s with
  | updateRound k d => simp [Stmt.drives, h.stamps k d rfl hs, Phase.isOpen]
  | _ => cases hs

lemma Stmt.looks_drives (hs : s.looks n) : s.drives = false := by
  cases s <;> first | rfl | simp_all [Stmt.looks, Stmt.drives, Phase.isOpen]

lemma Stmt.looks_stamps (hs : s.looks n) : s.stampsStart = false := by
  cases s <;> first | rfl | simp_all

lemma Piloted.of_looks (hs : s.looks n) : Piloted Fine i s w := by
  refine ⟨fun k d h hst => ?_, fun h => ?_⟩
  · subst h
    simp_all
  · rw [Stmt.looks_drives hs] at h
    cases h

lemma Piloted.of_not_drives (hd : s.drives = false) (hs : s.stampsStart = false) : Piloted Fine i s w := by
  refine ⟨fun k d h hst => ?_, fun h => ?_⟩
  · subst h
    rw [show d.startedAt.isSome = false from hs] at hst
    cases hst
  · rw [hd] at h
    cases h

lemma Piloted.of_helm (h : AtHelm P n i F w)
    (hst : ∀ k d, s = .updateRound k d → d.startedAt.isSome → d.status = some .running)
    (hf : F w.state → Fine n w.state s) : Piloted Fine i s w := by
  refine ⟨hst, fun _ m hm _ => ?_⟩
  obtain ⟨rfl, hF⟩ := h.2 m hm
  exact hf hF

lemma Phase.data_stamps {st : EngineState} {ph : Phase} {d : RoundData}
    (h : Stmt.updateRound st.roundId (ph.data st) = .updateRound k d) (hs : d.startedAt.isSome) :
    d.status = some .running := by
  obtain ⟨-, rfl⟩ := Stmt.updateRound.inj h
  cases ph <;> first | rfl | cases hs

lemma Begun.answers (h : Begun P i w.log) (ha : C.Answers i s w r w') : Begun P i w'.log := by
  obtain ⟨o, a, -, -, rfl⟩ := ha
  obtain ⟨x, hx, hs⟩ := h
  exact ⟨x, List.mem_cons_of_mem _ hx, hs⟩

namespace AtHelm

lemma answers (h : AtHelm P n i F w) (ha : C.Answers i s w r w') (hb : ∀ m, s ≠ .beginStart m)
    (hk : Steers n i w.log → F w.state → F' w'.state) : AtHelm P n i F' w' := by
  refine ⟨h.1.answers ha, fun m hm => ?_⟩
  have hs := steers_of_answers ha hb hm
  obtain ⟨rfl, hw⟩ := h.2 m hs
  exact ⟨rfl, hk hs hw⟩

lemma leads_to {Q : s.Result → State → Prop} (hb : ∀ m, s ≠ .beginStart m)
    (hpre : ∀ w, C.inv w → AtHelm P n i F w → C.pre i s w)
    (hk : ∀ w w' a, C.inv w → C.inv w' → Steers n i w.log → F w.state → C.Answers i s w (.ok a) w' →
      Q a w'.state) :
    C.Leads i s (AtHelm P n i F) (AtHelm P n i fun _ => True) fun a => AtHelm P n i (Q a) := by
  intro w hi hw
  refine ⟨hpre w hi hw, fun r w' ha hi' => ⟨hw.answers ha hb fun _ _ => trivial, ?_⟩⟩
  rintro a rfl
  exact hw.answers ha hb fun hs hF => hk w w' a hi hi' hs hF ha

lemma leads_same (hb : ∀ m, s ≠ .beginStart m) (hpre : ∀ w, C.inv w → AtHelm P n i F w → C.pre i s w)
    (hk : ∀ w w' r, C.inv w → Steers n i w.log → F w.state → C.Answers i s w r w' → F w'.state) :
    C.Leads i s (AtHelm P n i F) (AtHelm P n i F) fun _ => AtHelm P n i F := by
  intro w hi hw
  refine ⟨hpre w hi hw, fun r w' ha hi' => ?_⟩
  have h := hw.answers ha hb fun hs hF => hk w w' r hi hs hF ha
  exact ⟨h, fun _ _ => h⟩

lemma leads_began (hpre : ∀ w, C.pre i (.beginStart n) w)
    (hk : ∀ w w', C.inv w → C.Answers i (.beginStart n) w (.ok true) w' → F w'.state) :
    C.Leads i (.beginStart n) (AtHelm P n i fun _ => True) (AtHelm P n i fun _ => True) fun b w =>
      AtHelm P n i (fun _ => True) w ∧ (b = true → AtHelm P n i F w) := by
  intro w hi hw
  refine ⟨hpre w, fun r w' ha hi' => ?_⟩
  have hbegun := hw.1.answers ha
  have hn (m : ℕ) (hm : Steers m i w'.log) : m = n := by
    obtain ⟨o, σ', -, -, rfl⟩ := ha
    rcases hm.before with h | ⟨b, a, h⟩ | ⟨b, a, h⟩
    · exact (hw.2 m h).1
    · cases h
      rfl
    · cases h
  have hdone : AtHelm P n i (fun _ => True) w' := ⟨hbegun, fun m hm => ⟨hn m hm, trivial⟩⟩
  refine ⟨hdone, fun b hb => ⟨hdone, ?_⟩⟩
  rintro rfl
  subst hb
  exact ⟨hbegun, fun m hm => ⟨hn m hm, hk w w' hi ha⟩⟩

/-- A call that starts does not steer, unless a timer starts it. -/
lemma of_call {e : Event} {a : State} {p : Program game Outcome} (hr : Reigns P w)
    (hlog : ∀ x ∈ w.log, ∀ s, ¬ x.Issues k s) (hfresh : ∀ x ∈ w.log, ¬ Starts (system P) k x)
    (he : environment P e k w.state = some (a, some p)) (hnot : ∀ m, e ≠ .timer m) :
    AtHelm P n k (fun _ => True) (w.move k e a) := by
  refine ⟨⟨_, List.mem_cons_self, _, _, _, _, rfl, he⟩, fun m hm => ?_⟩
  rcases hm.before with h | ⟨b, a', h⟩ | ⟨b, a', h⟩
  · exact absurd h (hr.not_steers hlog hfresh)
  · cases h
  · exact absurd (Entry.moved.inj h).2.1 (hnot m)

lemma of_timer {a : State} {p : Program game Outcome} (hr : Reigns P w)
    (hlog : ∀ x ∈ w.log, ∀ s, ¬ x.Issues k s) (hfresh : ∀ x ∈ w.log, ¬ Starts (system P) k x)
    (he : environment P (.timer n) k w.state = some (a, some p))
    (hF : ∀ c, helm w.log = some (n, c) → F a) : AtHelm P n k F (w.move k (.timer n) a) := by
  refine ⟨⟨_, List.mem_cons_self, _, _, _, _, rfl, he⟩, fun m hm => ?_⟩
  rcases hm.before with h | ⟨b, a', h⟩ | ⟨b, a', h⟩
  · exact absurd h (hr.not_steers hlog hfresh)
  · cases h
  · obtain rfl : n = m := Event.timer.inj (Entry.moved.inj h).2.1
    rcases helm_before hm with ⟨c, hc⟩ | ⟨j, b, a, h⟩
    · exact ⟨rfl, hF c hc⟩
    · cases h

end AtHelm

section Timers

/-- No timer but that of a new round is armed. -/
def Calm (n : ℕ) (σ : State) : Prop := ∀ t ∈ (σ.nodes n).timer, t.2 = .waiting

instance (n : ℕ) (σ : State) : Decidable (Calm n σ) := inferInstanceAs (Decidable (∀ _ ∈ _, _))

def Resting (σ : State) : Prop := ∀ n, (σ.nodes n).running = false → Calm n σ

def Armed (R : ℕ → State → ℕ → Phase → Prop) (n : ℕ) (σ : State) : Prop :=
  ∀ due ph, (σ.nodes n).timer = some (due, ph) → R n σ due ph

inductive Arms (P : Params) (n : ℕ) (σ : State) : Stmt → ℕ → Phase → Prop
  | schedule (ms : ℕ) (ph : Phase) : Arms P n σ (.schedule n ms ph) (σ.now + ms) ph
  | crash : Arms P n σ (.scheduleCrash n)
      (σ.now + ((σ.nodes n).state.map (P.crashDelay ·.crashPoint)).getD 0) .crashed

variable {R : ℕ → State → ℕ → Phase → Prop} {due : ℕ} {ph : Phase} {c : Option ℕ}

lemma Calm.aside (h : Calm n σ) (ha : Aside n σ σ') : Calm n σ' :=
  fun t ht => (ha.timer t ht).elim (h t) id

lemma calm_of_nodes (hs : s.movesNode = false) (hexec : exec P o i s σ = some (r, σ')) (h : Calm n σ) :
    Calm n σ' := by
  rw [Calm, exec_nodes hexec hs]
  exact h

lemma Calm.armed (h : Calm n σ) (hR : ∀ due, R n σ due .waiting) : Armed R n σ := by
  intro due ph ht
  obtain rfl : ph = .waiting := h _ ht
  exact hR due

lemma exec_arms (h : exec P o i s σ = some (r, σ')) (hs : s.drives)
    (ht : (σ'.nodes n).timer = some (due, ph)) : (σ.nodes n).timer = some (due, ph) ∨
      Arms P n σ s due ph ∧ (σ'.nodes n).state = (σ.nodes n).state ∧ σ'.rounds = σ.rounds := by
  cases exec_nodeChange h n with
  | kept hk | attached hk | entered _ _ hk => exact .inl (by rwa [hk] at ht)
  | armed hk =>
      rw [hk] at ht
      obtain ⟨rfl, rfl⟩ := Prod.mk.inj (Option.some.inj ht)
      exact .inr ⟨.schedule _ _, by rw [hk], exec_rounds h rfl⟩
  | armedCrash hk =>
      rw [hk] at ht
      obtain ⟨rfl, rfl⟩ := Prod.mk.inj (Option.some.inj ht)
      exact .inr ⟨.crash, by rw [hk], exec_rounds h rfl⟩
  | began | stopped | raced | failed => cases hs

lemma Resting.answer (h : Resting w.state) (hr : Reigns P w) (hd : Driven i s w.log)
    (hexec : exec P o i s w.state = some (r, σ')) : Resting σ' := by
  intro n hrun t ht
  have hdriven (hs : s.drives) (hnode : s.node = some n)
      (hk : (σ'.nodes n).running = (w.state.nodes n).running) : t.2 = .waiting := by
    obtain ⟨m, hm, hall⟩ := hd hs
    obtain rfl := hall n hnode
    rw [hk, hr.runs _ _ hm] at hrun
    cases hrun
  cases exec_nodeChange hexec n with
  | kept hk | attached hk | entered _ _ hk | raced hk =>
      rw [hk] at hrun ht
      exact h n hrun t ht
  | began _ hk =>
      rw [hk] at hrun
      cases hrun
  | stopped hk =>
      rw [hk] at ht
      cases ht
  | armed hk | armedCrash hk => exact hdriven rfl rfl (by rw [hk])
  | failed _ hk =>
      rw [hk] at ht
      obtain rfl := Option.some.inj ht
      rfl

lemma Resting.moves (h : Resting w.state) (hm : C.Moves w w') : Resting w'.state := by
  rcases hm with ⟨k, e, a, p, -, he, rfl⟩ | ⟨k, -, rfl⟩
  · rw [World.move_state]
    intro n hrun t ht
    cases environment_nodeMove he n with
    | kept hk => exact h n (hk ▸ hrun) t (hk ▸ ht)
    | fired _ _ hk | lost hk | booted hk =>
        rw [hk] at ht
        cases ht
    | overrun _ hk =>
        rw [hk] at ht
        obtain rfl := Option.some.inj ht
        rfl
  · exact h

/-- The engine that has started last is looked at or driven by its routine, or a statement leaves it alone:
it has started before, or it starts now. -/
lemma helm_answer (hp : Piloted Fine i s w) (hd : Driven i s w.log)
    (hexec : exec P o i s w.state = some (r, σ')) (hh : helm (w.answer i s r σ').log = some (n, c)) :
    (helm w.log = some (n, c) ∧ w.state = σ') ∨ (s.drives ∧ Fine n w.state s) ∨
      s.drives = false ∧ Aside n w.state σ' ∧ ((∃ c', helm w.log = some (n, c')) ∨
        s = .beginStart n ∧ (w.state.nodes n).running = false) := by
  by_cases hs : s.drives
  · have hsame : helm w.log = some (n, c) := (helm_of_drives hs).symm.trans hh
    by_cases hread : ∃ m, s = .readState m
    · obtain ⟨m, rfl⟩ := hread
      exact .inl ⟨hsame, (exec_readState hexec).2.symm⟩
    · obtain ⟨m, hm, -⟩ := hd hs
      obtain rfl : m = n := congrArg Prod.fst (Option.some.inj (hm.symm.trans hsame))
      exact .inr (.inl ⟨hs, hp.fine hs m hm fun m' h => hread ⟨m', h⟩⟩)
  · have hs : s.drives = false := by simpa using hs
    refine .inr (.inr ⟨hs, exec_aside hexec hs hp.stamps_drives n, ?_⟩)
    rcases helm_before hh with h | ⟨j, b, a, heq⟩
    · exact .inl h
    · cases heq
      exact .inr ⟨rfl, (exec_beginStart hexec).1⟩

lemma helm_move {e : Event} {a : State} {p : Option (Program game Outcome)}
    (he : environment P e k w.state = some (a, p)) (hh : helm (w.move k e a).log = some (n, c)) :
    (∃ c', helm w.log = some (n, c')) ∧ Aside n w.state a := by
  refine ⟨?_, environment_aside he ?_⟩
  · rcases helm_before hh with h | ⟨j, b, a', heq⟩
    · exact h
    · cases heq
  · rintro rfl
    simpa using (Option.filter_eq_some_iff.1 hh).2

end Timers

end VaultRun.Game
