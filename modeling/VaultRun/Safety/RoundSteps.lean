import VaultRun.Game.Helm
import VaultRun.Game.Scenario
import VaultRun.Game.Settlement

/-!
A round moves one phase at a time, or is completed for good, where a round is updated only by the current
routine of the engine that has started last.
-/

namespace VaultRun.Safety.RoundSteps

open VaultRun.Concurrency VaultRun.Data VaultRun.Game Program

def next : Phase → Option Phase
  | .waiting => some .betting
  | .betting => some .running
  | .running => some .crashed
  | .crashed => some .settling
  | .settling => some .completed
  | .completed => none

def status (σ : State) (k : ℕ) : Option Phase := (σ.rounds.row k).map (·.status)

/-- What may become of the status of a round in one step; a round that is not there has none. -/
inductive Advance : Option Phase → Option Phase → Prop
  | kept (a : Option Phase) : Advance a a
  | opened : Advance none (some .waiting)
  | stepped {a b : Phase} (h : next a = some b) : Advance (some a) (some b)

def recovers (i : ℕ) : GameEntry → Bool
  | .moved j (.call (.start _)) _ _ => i = j
  | _ => false

def Recovers (i : ℕ) (log : List GameEntry) : Prop := ∃ x ∈ log, recovers i x

instance (i : ℕ) (log : List GameEntry) : Decidable (Recovers i log) :=
  inferInstanceAs (Decidable (∃ _ ∈ _, _))

/-- Every round keeps its phase, or it moves to the next, or it is completed by the recovery of a start. -/
def Stepwise (x : GameEntry) (earlier : List GameEntry) : Prop :=
  ∀ k, Advance (status x.before k) (status x.after k) ∨
    status x.after k = some .completed ∧ ∃ i s, x.Issues i s ∧ Recovers i earlier

instance (i : ℕ) (w : GameWorld) : Decidable (∃ n, Steers n i w.log ∧ Calm n w.state) :=
  decidable_of_iff ((helm w.log).any fun h => h.2 = some i ∧ Calm h.1 w.state) <| by
    simp only [Option.any_eq_true, decide_eq_true_eq, Prod.exists, Steers]
    constructor
    · rintro ⟨n, j, h, rfl, hc⟩
      exact ⟨n, h, hc⟩
    · rintro ⟨n, h, hc⟩
      exact ⟨n, some i, h, rfl, hc⟩

/-- A statement that updates a round or has it settled is the current routine's, a round is updated before the
next transition of its engine is armed, and no start finds a round besides the newest still running. -/
@[reducible] def inStep (i : ℕ) (w : GameWorld) : Stmt → Bool
  | .updateRound _ _ => decide (∃ n, Steers n i w.log ∧ Calm n w.state)
  | .emitSettle n _ => decide (Steers n i w.log)
  | .findOpenRounds => Recovers i w.log → w.state.openRounds.tail.all fun x => x.2.status ≠ .running
  | _ => true

@[reducible] def asksSettle : Event → Bool
  | .call (.settleRound _) => true
  | _ => false

/-- An engine is driven, and settles its round, by the current routine, step by step; and `settleRound` is run
by the gateway, when the engine asks for it. -/
@[reducible] def conducted : GameRule where
  act i _ s w := Driven i s w.log ∧ inStep i w s
  kill _ _ := True
  env _ e _ := !asksSettle e

def Ready (n : ℕ) (σ : State) (ph : Phase) : Prop :=
  ph ≠ .waiting → ∃ s a, (σ.nodes n).state = some s ∧ status σ s.roundId = some a ∧ next a = some ph

def Fine (n : ℕ) (σ : State) (s : Stmt) : Prop := Calm n σ ∧ match s with
  | .schedule _ _ ph => Ready n σ ph
  | .scheduleCrash _ => Ready n σ .crashed
  | .enterPhase _ ph _ => ph ≠ .waiting ∧ Ready n σ ph
  | .updateRound k d => ∀ ph, d.status = some ph →
      (∃ a, status σ k = some a ∧ next a = some ph) ∧ (ph = .crashed → d.crashes)
  | _ => True

def Settling (i : ℕ) (s : Stmt) (w : GameWorld) : Prop := ∀ n, s = .emitSettle n none → Steers n i w.log →
  ∃ st, (w.state.nodes n).state = some st ∧ status w.state st.roundId = some .settling

structure StepInv (P : Params) (args : ℕ → Event) (w : GameWorld) : Prop where
  reigns : Reigns P w
  helmed : ∀ n i, Steers n i w.log → (∃ m, args i = .call (.start m)) ∨ args i = .timer n
  resting : Resting w.state
  armed : ∀ n c, helm w.log = some (n, c) → Armed (fun n σ _ => Ready n σ) n w.state
  entered : ∀ n i ph st, Steers n i w.log → (notesOf i w.log).entered = some (ph, st) →
    ∃ a, status w.state st.roundId = some a ∧ next a = some ph
  steps : Throughout Stepwise w.log

def roundSteps (P : Params) (args : ℕ → Event) : Contract (system P) where
  rule := (((conducted.given (system P) args).following Notes.learn Notes.blank (Orders args)).unissued).fresh (system P)
  inv := StepInv P args
  stmts _ := True
  pre i s w := Piloted Fine i s w ∧ Settling i s w
  ended _ _ _ := True

variable {P : Params} {args : ℕ → Event} {σ σ' : State} {w w' : GameWorld} {i n k : ℕ} {s : Stmt} {r : game.Reply s}
  {o : Oracle} {st : EngineState} {ph : Phase} {p : Point}

section Step

lemma recovers_of_begins {x : GameEntry} {log : List GameEntry} (hi : args i = .call (.start n)) (hx : x ∈ log)
    (hb : Begins (system P) args i x) : Recovers i log := by
  obtain ⟨b, a, p, rfl, -⟩ := hb
  exact ⟨_, hx, by simp [recovers, hi]⟩

lemma updated_by {d : RoundData} (h : inStep i w (.updateRound k d)) : ∃ n, Steers n i w.log ∧ Calm n w.state :=
  of_decide_eq_true h

lemma status_exec (h : exec P o i s σ = some (r, σ')) (hs : ∀ d, s ≠ .updateRound k d) :
    status σ' k = status σ k ∨ status σ k = none ∧ status σ' k = some .waiting ∧ s.drives := by
  unfold status
  cases exec_roundChange h k with
  | kept hk => exact .inl (by rw [hk])
  | created hn hrow => exact .inr ⟨by rw [hn, σ.rounds.row_next]; rfl, by rw [hrow]; rfl, rfl⟩
  | updated => exact absurd rfl (hs _)
  | stamped hold hrow => exact .inl (by rw [hrow, hold]; rfl)

lemma status_update {d : RoundData} {r : game.Reply (.updateRound k d)}
    (h : exec P o i (.updateRound k d) σ = some (r, σ')) : status σ' k = status σ k ∨
      ∃ a b, status σ k = some a ∧ d.status = some b ∧ status σ' k = some b := by
  unfold status
  cases exec_roundChange h k with
  | kept hk => exact .inl (by rw [hk])
  | @updated _ old hold hrow =>
      cases hst : d.status with
      | none => exact .inl (by rw [hrow, hold]; simp [RoundData.apply, hst])
      | some b => exact .inr ⟨old.status, b, by rw [hold]; rfl, rfl, by rw [hrow]; simp [RoundData.apply, hst]⟩

/-- The current routine completes a round that is being settled, unless it is a start that recovers. -/
lemma completed_step {d : RoundData} (hi : StepInv P args w) (hs : Steers n i w.log)
    (ho : Orders args i (notesOf i w.log) (.updateRound k d)) (hd : d.status = some .completed)
    (hg : ∃ x ∈ w.log, Begins (system P) args i x) :
    (∃ a, status w.state k = some a ∧ next a = some .completed) ∨ Recovers i w.log := by
  rcases hi.helmed n i hs with ⟨m, hm⟩ | htimer
  · obtain ⟨x, hx, hbegins⟩ := hg
    exact .inr (recovers_of_begins hm hx hbegins)
  · obtain ⟨st, hst, rfl⟩ := ho.completes n htimer hd
    exact .inl (hi.entered n i _ st hs hst)

lemma advance_step (hi : StepInv P args w) (hp : Piloted Fine i s w)
    (hr : (roundSteps P args).rule.act i o s w) (hexec : exec P o i s w.state = some (r, σ')) :
    Stepwise (.answered i s r w.state σ') w.log := by
  intro k
  show Advance (status w.state k) (status σ' k) ∨ _
  by_cases hs : ∃ d, s = .updateRound k d
  · obtain ⟨d, rfl⟩ := hs
    rcases status_update hexec with hk | ⟨a, b, ha, hb, hafter⟩
    · exact .inl (hk ▸ .kept _)
    · have hstep (hnext : ∃ a', status w.state k = some a' ∧ next a' = some b) :
          Advance (status w.state k) (status σ' k) := by
        obtain ⟨a', ha', hnext⟩ := hnext
        rw [ha', hafter]
        exact .stepped hnext
      by_cases hopen : b.isOpen
      · have hdrives : Stmt.drives (.updateRound k d) := by simp [Stmt.drives, hb, hopen]
        obtain ⟨m, hm, -⟩ := hr.1.1.1 hdrives
        exact .inl (hstep ((hp.fine hdrives m hm nofun).2 b hb).1)
      · obtain rfl : b = .completed := by cases b <;> simp_all [Phase.isOpen]
        obtain ⟨m, hm, -⟩ := updated_by hr.1.1.2
        rcases completed_step hi hm hr.2 hb hr.1.2 with hnext | hrec
        · exact .inl (hstep hnext)
        · exact .inr ⟨hafter, i, _, ⟨_, _, _, rfl⟩, hrec⟩
  · rcases status_exec hexec fun d h => hs ⟨d, h⟩ with hk | ⟨hnone, hsome, -⟩
    · exact .inl (hk ▸ .kept _)
    · rw [hnone, hsome]
      exact .inl .opened

lemma Ready.same (h : Ready n σ ph) (hst : (σ'.nodes n).state = (σ.nodes n).state)
    (hround : ∀ k, status σ' k = status σ k ∨ status σ k = none) : Ready n σ' ph := by
  intro hph
  obtain ⟨s, a, hs, ha, hnext⟩ := h hph
  refine ⟨s, a, hst.trans hs, ?_, hnext⟩
  rcases hround s.roundId with hk | hnone
  · exact hk.trans ha
  · rw [ha] at hnone
    cases hnone

lemma armed_of_calm (h : Calm n σ) : Armed (fun n σ _ => Ready n σ) n σ := h.armed fun _ hw => absurd rfl hw

lemma armed_aside (h : Armed (fun n σ _ => Ready n σ) n σ) (ha : Aside n σ σ')
    (hround : ∀ k, status σ' k = status σ k ∨ status σ k = none) : Armed (fun n σ _ => Ready n σ) n σ' := by
  intro due ph ht
  rcases ha.timer _ ht with hold | hw
  · exact (h due ph hold).same ha.state hround
  · exact fun hph => absurd hw hph

lemma armed_of_drives (hfine : Fine n w.state s) (hd : s.drives) (hexec : exec P o i s w.state = some (r, σ')) :
    Armed (fun n σ _ => Ready n σ) n σ' := by
  obtain ⟨hcalm, hfine⟩ := hfine
  intro due ph ht
  rcases exec_arms hexec hd ht with hold | ⟨harms, hst, hrounds⟩
  · exact fun hph => absurd (hcalm _ hold) hph
  · have hready : Ready n w.state ph := by cases harms <;> exact hfine
    exact hready.same hst fun k => .inl (by rw [status, hrounds, status])

lemma armed_step (hi : StepInv P args w) (hp : Piloted Fine i s w) (hr : conducted.act i o s w)
    (hexec : exec P o i s w.state = some (r, σ')) {c : Option ℕ}
    (hh : helm (w.answer i s r σ').log = some (n, c)) : Armed (fun n σ _ => Ready n σ) n σ' := by
  rcases helm_answer hp hr.1 hexec hh with ⟨hc, rfl⟩ | ⟨hs, hfine⟩ | ⟨hs, haside, hhelm⟩
  · exact hi.armed n c hc
  · exact armed_of_drives hfine hs hexec
  · by_cases hup : ∃ k d, s = .updateRound k d
    · obtain ⟨k, d, rfl⟩ := hup
      obtain ⟨m, hm, hcalm⟩ := updated_by hr.2
      obtain rfl : m = n := congrArg Prod.fst (Option.some.inj (hm.symm.trans hh))
      exact armed_of_calm (hcalm.aside haside)
    · have hround (k : ℕ) : status σ' k = status w.state k ∨ status w.state k = none :=
        (status_exec hexec fun d h => hup ⟨k, d, h⟩).imp_right fun h => h.1
      rcases hhelm with ⟨c', hc'⟩ | ⟨rfl, hrun⟩
      · exact armed_aside (hi.armed n c' hc') haside hround
      · exact armed_of_calm ((hi.resting n hrun).aside haside)

lemma helmed_step (hi : StepInv P args w) (ho : Orders args i (notesOf i w.log) s) {j : ℕ}
    (hs : Steers n j (w.answer i s r σ').log) : (∃ m, args j = .call (.start m)) ∨ args j = .timer n := by
  rcases hs.before with h | ⟨b, a, h⟩ | ⟨b, a, h⟩
  · exact hi.helmed n j h
  · cases h
    exact .inl (ho.begins n rfl)
  · cases h

lemma entered_step (hi : StepInv P args w) (hp : Piloted Fine i s w) (hr : conducted.act i o s w)
    (hexec : exec P o i s w.state = some (r, σ')) {j : ℕ} (hs : Steers n j (w.answer i s r σ').log)
    (hst : (notesOf j (w.answer i s r σ').log).entered = some (ph, st)) :
    ∃ a, status σ' st.roundId = some a ∧ next a = some ph := by
  by_cases hj : i = j
  · subst hj
    rw [notesOf, World.answer_log, foldBy_self] at hst
    cases s with
    | enterPhase m ph' ms =>
        cases r with
        | error e => cases hst
        | ok st' =>
            obtain ⟨rfl, rfl⟩ := Prod.mk.inj (Option.some.inj hst)
            obtain ⟨m', hm', hnode⟩ := hr.1 rfl
            obtain rfl := hnode m rfl
            obtain ⟨-, hph, hready⟩ := hp.fine rfl m hm' nofun
            obtain ⟨z, a, hz, ha, hnext⟩ := hready hph
            obtain ⟨z', hz', rfl, rfl⟩ := exec_enterPhase hexec
            obtain rfl := Option.some.inj (hz.symm.trans hz')
            exact ⟨a, ha, hnext⟩
    | findOpenRounds => cases r <;> cases hst
    | _ => cases hst
  · rw [notesOf, World.answer_log, foldBy_answered hj] at hst
    have hsteers : Steers n j w.log := by
      rcases hs.before with h | ⟨b, a, h⟩ | ⟨b, a, h⟩
      · exact h
      · exact absurd (Entry.answered.inj h).1 hj
      · cases h
    obtain ⟨a, ha, hnext⟩ := hi.entered n j ph st hsteers hst
    have hother (d : RoundData) : s ≠ .updateRound st.roundId d := by
      rintro rfl
      obtain ⟨m, hm, -⟩ := updated_by hr.2
      exact hj (hsteers.unique hm).2
    refine ⟨a, ?_, hnext⟩
    rcases status_exec hexec hother with hk | ⟨hnone, -⟩
    · exact hk.trans ha
    · rw [ha] at hnone
      cases hnone

lemma steps_step (hi : StepInv P args w) (hp : (roundSteps P args).pre i s w)
    (ha : (roundSteps P args).Answers i s w r w') : StepInv P args w' := by
  obtain ⟨o, σ', hr, hexec, rfl⟩ := ha
  exact ⟨hi.reigns.answer hexec, fun n j => helmed_step hi hr.2, hi.resting.answer hi.reigns hr.1.1.1 hexec,
    fun n c => armed_step hi hp.1 hr.1.1 hexec,
    fun n j ph st hs hst => entered_step hi hp.1 hr.1.1 hexec hs hst, advance_step hi hp.1 hr hexec, hi.steps⟩

lemma steps_moves (hi : StepInv P args w) (hm : (roundSteps P args).Moves w w') : StepInv P args w' := by
  have hreigns : Reigns P w' := hi.reigns.moves hm
  have hresting : Resting w'.state := hi.resting.moves hm
  have hrounds := (moves_tables hm).rounds
  have hstatus (k : ℕ) : status w'.state k = status w.state k := by rw [status, hrounds, status]
  rcases hm with ⟨j, e, a, p, hr, he, rfl⟩ | ⟨j, -, rfl⟩
  · have hsteers {n i : ℕ} (hs : Steers n i (w.move j e a).log) : Steers n i w.log ∨ i = j ∧ e = .timer n := by
      rcases hs.before with h | ⟨b, a, h⟩ | ⟨b, a, h⟩
      · exact .inl h
      · cases h
      · obtain ⟨rfl, rfl, -, -⟩ := Entry.moved.inj h
        exact .inr ⟨rfl, rfl⟩
    refine ⟨hreigns, fun n i hs => ?_, hresting, fun n c hh => ?_, fun n i ph st hs hst => ?_,
      fun k => .inl ((hstatus k).symm ▸ .kept _), hi.steps⟩
    · rcases hsteers hs with hs | ⟨rfl, rfl⟩
      · exact hi.helmed n i hs
      · rcases helm_before hs with ⟨c, hc⟩ | ⟨_, _, _, heq⟩
        · obtain ⟨_, _, _, q, heq, hstart⟩ := starts_of_timer he (hi.reigns.runs n c hc)
          cases heq
          exact .inr (hr.1.1.2 _ _ hstart).symm
        · cases heq
    · obtain ⟨⟨c', hc'⟩, haside⟩ := helm_move he hh
      exact armed_aside (hi.armed n c' hc') haside fun k => .inl (hstatus k)
    · rcases hsteers hs with hs | ⟨rfl, rfl⟩
      · rw [hstatus]
        exact hi.entered n i ph st hs hst
      · rw [notesOf, World.move_log, foldBy_moved, foldBy_of_absent hr.1.2] at hst
        cases hst
  · exact ⟨hreigns, hi.helmed, hresting, hi.armed, hi.entered, fun k => .inl (.kept _), hi.steps⟩

lemma roundSteps_steered : Steered (roundSteps P args) where
  act _ _ _ _ h := h.1.1.1
  env _ _ _ h := h.2
  pre _ _ _ hp := hp.1.stamps_drives

end Step

section Course

def Knows (n : ℕ) (σ : State) : Point → Prop
  | .done => True
  | .began => Calm n σ
  | .enter ph => Calm n σ ∧ Ready n σ ph
  | .created s => Calm n σ ∧ status σ s.roundId = some .waiting
  | .entered ph s => Calm n σ ∧ (σ.nodes n).state = some s ∧ ∃ a, status σ s.roundId = some a ∧ next a = some ph
  | .written ph s => Calm n σ ∧ (σ.nodes n).state = some s ∧ status σ s.roundId = some ph
  | .found c | .dated c _ => Calm n σ ∧ status σ c.1 = some c.2.status
  | .resumed c _ => Calm n σ ∧ (σ.nodes n).state = some (memoryOf c) ∧ status σ c.1 = some c.2.status

abbrev At (P : Params) (n i : ℕ) (p : Point) : GameWorld → Prop := AtHelm P n i (Knows n · p)

lemma Knows.aside (h : Knows n σ p) (ha : Aside n σ σ')
    (hround : ∀ k, ¬ p.MayClose k → status σ' k = status σ k ∨ status σ k = none) : Knows n σ' p := by
  have hkept {k : ℕ} {a : Phase} (hk : ¬ p.MayClose k) (hs : status σ k = some a) : status σ' k = some a := by
    rcases hround k hk with heq | hnone
    · exact heq.trans hs
    · rw [hs] at hnone
      cases hnone
  cases p with
  | done => trivial
  | began => exact h.aside ha
  | enter ph => exact ⟨h.1.aside ha, h.2.same ha.state fun k => hround k id⟩
  | created s => exact ⟨h.1.aside ha, hkept id h.2⟩
  | entered ph s =>
      obtain ⟨hcalm, hst, a, hs, hnext⟩ := h
      exact ⟨hcalm.aside ha, ha.state.trans hst, a, hkept id hs, hnext⟩
  | written ph s => exact ⟨h.1.aside ha, ha.state.trans h.2.1, hkept id h.2.2⟩
  | found c => exact ⟨h.1.aside ha, hkept (fun hk => hk rfl) h.2⟩
  | dated c t => exact ⟨h.1.aside ha, hkept id h.2⟩
  | resumed c t => exact ⟨h.1.aside ha, ha.state.trans h.2.1, hkept id h.2.2⟩

lemma status_disturbed (hd : (roundSteps P args).Disturbs i w w') (hs : Steers n i w.log) (k : ℕ) :
    status w'.state k = status w.state k ∨ status w.state k = none := by
  rcases hd.2.2 with hm | ⟨j, s, r, hj, -, -, o, a, hr, hexec, rfl⟩
  · exact .inl (by rw [status, (moves_tables hm).rounds, status])
  · refine (status_exec hexec ?_).imp_right fun h => h.1
    rintro d rfl
    obtain ⟨m, hm, -⟩ := updated_by hr.1.1.2
    exact hj (hs.unique hm).2

lemma stable_at (p : Point) : (roundSteps P args).Stable i (At P n i p) :=
  roundSteps_steered.stable fun _ _ hd hs _ ha h => h.aside ha fun k _ => status_disturbed hd hs k

lemma at_done (h : At P n i p w) : At P n i .done w := h.mono fun _ _ => trivial

lemma pre_aside (hd : s.drives = false) (hs : s.stampsStart = false) (hn : ∀ m, s ≠ .emitSettle m none) :
    (roundSteps P args).pre i s w :=
  ⟨.of_not_drives hd hs, fun m h => absurd h (hn m)⟩

lemma leads_kept (hd : s.drives = false) (hs : s.stampsStart = false) (hb : ∀ m, s ≠ .beginStart m)
    (hsp : s.Spares p) (hpre : ∀ w, At P n i p w → (roundSteps P args).pre i s w) :
    (roundSteps P args).Leads i s (At P n i p) (At P n i p) fun _ => At P n i p := by
  refine AtHelm.leads_same hb (fun w _ h => hpre w h) fun w w' r hi _ hk ha => ?_
  obtain ⟨o, σ', -, hexec, rfl⟩ := ha
  refine hk.aside (exec_aside hexec hd (fun h => absurd (hs.symm.trans h) nofun) n) fun k hclose => ?_
  refine (status_exec hexec ?_).imp_right fun h => h.1
  rintro d rfl
  exact hclose (hsp k d rfl)

lemma leads_same (hd : s.drives = false) (hs : s.stampsStart = false) (hb : ∀ m, s ≠ .beginStart m)
    (hn : ∀ m, s ≠ .emitSettle m none) (hsp : s.Spares p) :
    (roundSteps P args).Leads i s (At P n i p) (At P n i p) fun _ => At P n i p :=
  leads_kept hd hs hb hsp fun _ _ => pre_aside hd hs hn

lemma leads_aside (hd : s.drives = false) (hs : s.stampsStart = false) (hb : ∀ m, s ≠ .beginStart m)
    (hn : ∀ m, s ≠ .emitSettle m none) (hsp : s.Spares p) :
    (roundSteps P args).Leads i s (At P n i p) (At P n i .done) fun _ => At P n i p :=
  (leads_same hd hs hb hn hsp).imp fun _ => at_done

lemma leads_settle (hk : ∀ σ, Knows n σ p → ∃ st, (σ.nodes n).state = some st ∧
    status σ st.roundId = some .settling) :
    (roundSteps P args).Leads i (.emitSettle n none) (At P n i p) (At P n i .done) fun _ => At P n i p :=
  Contract.Leads.imp (leads_kept rfl rfl nofun nofun fun w hw => ⟨.of_not_drives rfl rfl, fun m heq hs => by
    obtain ⟨rfl, hknow⟩ := hw.2 m hs
    exact hk _ hknow⟩) fun _ => at_done

lemma leads_to {q : s.Result → Point} (hb : ∀ m, s ≠ .beginStart m) (hn : ∀ m, s ≠ .emitSettle m none)
    (hst : ∀ k d, s = .updateRound k d → d.startedAt.isSome → d.status = some .running)
    (hf : ∀ σ, Knows n σ p → Fine n σ s)
    (hk : ∀ σ σ' a, Knows n σ p → exec P .ok i s σ = some (.ok a, σ') → Knows n σ' (q a))
    (hv : s.isView = false) :
    (roundSteps P args).Leads i s (At P n i p) (At P n i .done) fun a => At P n i (q a) :=
  AtHelm.leads_to hb (fun _ _ hw => ⟨.of_helm hw hst (hf _), fun m h => absurd h (hn m)⟩)
    fun _ _ a _ _ _ hkn ⟨_, _, _, hexec, hw'⟩ => by
    rw [hw']
    exact hk _ _ a hkn (perform_of_ok hexec hv)

lemma knows_created {seed crash ends id : ℕ} (h : Knows n σ (.enter .waiting))
    (hexec : exec P .ok i (.createRound seed crash ends) σ = some (.ok id, σ')) :
    Knows n σ' (.created ⟨id, seed, .waiting, ends, none, crash⟩) := by
  refine ⟨calm_of_nodes rfl hexec h.1, ?_⟩
  rw [status, (exec_createRound hexec).2]
  rfl

lemma knows_opened {u : Unit} (h : Knows n σ (.created st))
    (hexec : exec P .ok i (.setState n st) σ = some (.ok u, σ')) : Knows n σ' (.written .waiting st) := by
  obtain rfl := exec_setState hexec
  exact ⟨by simpa [Calm] using h.1, by simp, h.2⟩

lemma knows_entered {ms : ℕ} (hph : ph ≠ .waiting) (h : Knows n σ (.enter ph))
    (hexec : exec P .ok i (.enterPhase n ph ms) σ = some (.ok st, σ')) : Knows n σ' (.entered ph st) := by
  obtain ⟨s, a, hs, ha, hnext⟩ := h.2 hph
  obtain ⟨s', hs', rfl, rfl⟩ := exec_enterPhase hexec
  obtain rfl := Option.some.inj (hs.symm.trans hs')
  exact ⟨by simpa [Calm] using h.1, by simp, a, ha, hnext⟩

lemma data_status (st : EngineState) (ph : Phase) : (ph.data st).status = some ph := by
  cases ph <;> rfl

lemma knows_written {u : Unit} (h : Knows n σ (.entered ph st))
    (hexec : exec P .ok i (.updateRound st.roundId (ph.data st)) σ = some (.ok u, σ')) :
    Knows n σ' (.written ph st) := by
  obtain ⟨x, -, hrow⟩ := exec_updateRound hexec
  refine ⟨calm_of_nodes rfl hexec h.1, ?_, ?_⟩
  · rw [exec_nodes hexec rfl]
    exact h.2.1
  · rw [status, hrow]
    simp [RoundData.apply, data_status]

lemma ready_of_written {after : Phase} (h : Knows n σ (.written ph st)) (hp : Precedes ph after) :
    Ready n σ after := by
  intro hw
  refine ⟨st, ph, h.2.1, h.2.2, ?_⟩
  cases hp with
  | completed => exact absurd rfl hw
  | waiting | betting | crashed | settling => rfl

lemma ready_of_resumed {c : ℕ × Round} {t ms : ℕ} (h : Knows n σ (.resumed c t)) (hr : Rearms P c t ms ph) :
    Ready n σ ph := by
  refine fun _ => ⟨memoryOf c, c.2.status, h.2.1, h.2.2, ?_⟩
  cases hr with
  | waiting h | betting h | running h | crashed h | settling h => rw [h]; rfl

lemma leads_found : (roundSteps P args).Leads i .findOpenRounds (At P n i .began) (At P n i .done) fun rounds w =>
    (rounds = [] → At P n i (.enter .waiting) w) ∧
      ∀ c stale, rounds = c :: stale → c.2.status.isOpen ∧ At P n i (.found c) w := by
  intro w hi hw
  refine ⟨pre_aside rfl rfl nofun, fun r w' ha hi' => ⟨hw.answers ha nofun fun _ _ => trivial, ?_⟩⟩
  rintro rounds rfl
  have hrounds : w.state.openRounds = rounds ∧ w.state = w'.state := by
    obtain ⟨o, σ', -, hexec, rfl⟩ := ha
    exact exec_findOpenRounds hexec
  refine ⟨fun _ => hw.answers ha nofun fun _ h => hrounds.2 ▸ ⟨h, fun hph => absurd rfl hph⟩, ?_⟩
  rintro c stale rfl
  obtain ⟨hrow, hopen⟩ := mem_openRounds.1 (hrounds.1 ▸ List.mem_cons_self : c ∈ w.state.openRounds)
  refine ⟨hopen, hw.answers ha nofun fun _ h => hrounds.2 ▸ ⟨h, ?_⟩⟩
  rw [status, hrow]
  rfl

lemma leads_closed (c : ℕ × Round) :
    (roundSteps P args).Leads i (.updateRound c.1 { status := some .completed, settles := true })
      (At P n i (.found c)) (At P n i .done) fun _ => At P n i (.enter .waiting) := by
  refine AtHelm.leads_to nofun (fun _ _ _ => pre_aside rfl rfl nofun) fun w w' a _ _ _ hk ha => ?_
  obtain ⟨o, σ', -, hexec, rfl⟩ := ha
  exact ⟨calm_of_nodes rfl hexec hk.1, fun hph => absurd rfl hph⟩

lemma course (n i : ℕ) : Course (roundSteps P args) n i (At P n i) where
  stable := stable_at
  done _ _ := at_done
  looks p s hs hsp := leads_same (Stmt.looks_drives hs) (Stmt.looks_stamps hs) (by rintro m rfl; cases hs)
    (by rintro m rfl; cases hs) hsp
  reads ph := by
    refine AtHelm.leads_to nofun (fun w _ _ => ⟨⟨nofun, fun _ _ _ h => absurd rfl (h n)⟩, nofun⟩) ?_
    rintro w w' a - - - hk ⟨o, σ', -, hexec, rfl⟩
    exact (exec_readState hexec).2 ▸ hk
  stop := leads_aside rfl rfl nofun nofun nofun
  lost := leads_aside rfl rfl nofun nofun nofun
  retry := leads_to nofun nofun nofun (fun _ h => ⟨h.1, fun hph => absurd rfl hph⟩) (fun _ _ _ _ _ => trivial) rfl
  created seed crash ends := leads_to nofun nofun nofun (fun _ h => ⟨h.1, trivial⟩) (fun _ _ _ => knows_created) rfl
  opened s := leads_to nofun nofun nofun (fun _ h => ⟨h.1, trivial⟩) (fun _ _ _ => knows_opened) rfl
  entered ph ms hph := leads_to nofun nofun nofun (fun _ h => ⟨h.1, hph, h.2⟩) (fun _ _ _ => knows_entered hph) rfl
  written ph s hph := leads_to nofun nofun (fun _ _ => Phase.data_stamps)
    (fun _ h => ⟨h.1, fun b hb => by
      obtain rfl := Option.some.inj ((data_status s ph).symm.trans hb)
      exact ⟨h.2.2, by rintro rfl; rfl⟩⟩) (fun _ _ _ => knows_written) rfl
  revealed s := leads_aside rfl rfl nofun nofun nofun
  settled s := leads_settle fun _ h => ⟨s, h.2⟩
  armed ph after s hf := leads_to nofun nofun nofun (fun _ h => ⟨h.1, ready_of_written h hf⟩)
    (fun _ _ _ _ _ => trivial) rfl
  armedCrash s := leads_to nofun nofun nofun (fun _ h => ⟨h.1, fun _ => ⟨s, .running, h.2.1, h.2.2, rfl⟩⟩)
    (fun _ _ _ _ _ => trivial) rfl
  began := AtHelm.leads_began (fun _ => pre_aside rfl rfl nofun) fun w w' hi ⟨o, σ', hr, hexec, hw'⟩ => by
    obtain ⟨hrun, rfl⟩ := exec_beginStart hexec
    rw [hw']
    simpa [Knows, Calm] using hi.resting n hrun
  found := leads_found
  closedExtra c seed := leads_same rfl rfl nofun nofun nofun
  settledExtra _ _ := leads_same rfl rfl nofun nofun nofun
  closed := leads_closed
  dated c := leads_aside (p := .found c) rfl rfl nofun nofun nofun
  resumed c t := leads_to nofun nofun nofun (fun _ h => ⟨h.1, trivial⟩) (fun _ _ _ h hexec => by
    obtain rfl := exec_setState hexec
    exact ⟨by simpa [Calm] using h.1, by simp, h.2⟩) rfl
  rearmed c t ms ph hr := leads_to nofun nofun nofun (fun _ h => ⟨h.1, ready_of_resumed h hr⟩)
    (fun _ _ _ _ _ => trivial) rfl
  overdue c t a w hst ha hdue hw := hw.mono fun _ h =>
    ⟨h.1, fun _ => ⟨_, c.2.status, h.2.1, h.2.2, by rw [hst]; rfl⟩⟩
  reread c t hst w hi hw := by
    refine ⟨⟨⟨nofun, fun _ _ _ h => absurd rfl (h n)⟩, nofun⟩, fun r w' ha hi' => ?_⟩
    have hat : At P n i (.resumed c t) w' := hw.answers ha nofun fun _ h => by
      obtain ⟨o, σ', -, hexec, rfl⟩ := ha
      exact (exec_readState hexec).2 ▸ h
    exact ⟨at_done hat, fun s _ =>
      ⟨leads_aside rfl rfl (by rintro _ ⟨⟩) (by rintro _ ⟨⟩) (by rintro _ _ ⟨⟩), hat⟩⟩
  settledAgain c t hst := leads_settle fun _ h => ⟨_, h.2.1, h.2.2.trans (congrArg some hst)⟩

lemma roundSteps_sound : (roundSteps P args).Sound := by
  refine sound_of_course (J := At P) (fun _ => trivial) (fun _ _ _ => trivial) course
    (fun _ _ _ _ _ => steps_step) (fun _ _ => steps_moves)
    (fun n k e w a p hi hr hlog he hnot => .of_call hi.reigns hlog hr.2 he hnot)
    fun n k w a p due ph hi hr hlog he htimer hdue hrun => .of_timer hi.reigns hlog hr.2 he fun c hc => ?_
  obtain ⟨due', ph', htimer', -, -, -, rfl⟩ := environment_fired he
  have hready : Ready n w.state ph := hi.armed n c hc due ph htimer
  exact ⟨by simp [Calm], hready.same (by simp) fun _ => .inl rfl⟩

end Course

end VaultRun.Safety.RoundSteps
