import VaultRun.Game.Helm
import VaultRun.Game.Scenario

/-!
At most one round is open where no transition fails while a round is open, and no routine that a deadline, a
stop or a new start has given up drives the engine.
-/

namespace VaultRun.Safety.SingleRound

open VaultRun.Concurrency VaultRun.Data VaultRun.Game Program

def NoneOpen (σ : State) : Prop := ∀ k x, σ.rounds.row k = some x → x.status.isOpen = false

def OnlyOpen (k : ℕ) (σ : State) : Prop := ∀ j x, σ.rounds.row j = some x → x.status.isOpen → j = k

def AtMostOne (σ : State) : Prop := ∀ j k x y, σ.rounds.row j = some x → σ.rounds.row k = some y →
  x.status.isOpen → y.status.isOpen → j = k

/-- The transition of call `j` may fail: its engine has been stopped, or no round is open. -/
def MayFail (n j : ℕ) (w : GameWorld) : Prop :=
  (w.state.nodes n).running = false ∨ Steers n j w.log ∧ w.state.openRounds = []

instance (n j : ℕ) (w : GameWorld) : Decidable (MayFail n j w) := inferInstanceAs (Decidable (_ ∨ _))

@[reducible] def fails : Stmt → Option ℕ
  | .raceLost n => some n
  | _ => none

@[reducible] def begins : Stmt → Option ℕ
  | .beginStart n => some n
  | _ => none

@[reducible] def overruns : Event → Option (ℕ × ℕ)
  | .deadline n j => some (n, j)
  | _ => none

/-- The engine is driven by the current routine, no transition fails or exceeds its deadline while a round
is open, and an engine starts with no timer armed. -/
@[reducible] def orderly : GameRule where
  act i _ s w := Driven i s w.log ∧ (∀ n ∈ fails s, (w.state.nodes n).racing.any (·.1 = i) → MayFail n i w) ∧
    ∀ n ∈ begins s, (w.state.nodes n).timer = none
  kill _ _ := True
  env _ e w := ∀ t ∈ overruns e, (w.state.nodes t.1).racing.any (·.1 = t.2) → MayFail t.1 t.2 w

def Ready (n : ℕ) (σ : State) (ph : Phase) : Prop :=
  if ph = .waiting then NoneOpen σ else ∃ s, (σ.nodes n).state = some s ∧ OnlyOpen s.roundId σ

def Idle (n : ℕ) (σ : State) : Prop := (σ.nodes n).timer = none

def Fine (n : ℕ) (σ : State) (s : Stmt) : Prop := Idle n σ ∧ match s with
  | .schedule _ _ ph => Ready n σ ph
  | .scheduleCrash _ => Ready n σ .crashed
  | .createRound _ _ _ => NoneOpen σ
  | .updateRound k _ => OnlyOpen k σ
  | _ => True

structure SingleInv (P : Params) (w : GameWorld) : Prop where
  one : AtMostOne w.state
  reigns : Reigns P w
  armed : ∀ n c, helm w.log = some (n, c) → Armed (fun n σ _ => Ready n σ) n w.state

def single (P : Params) : Contract (system P) where
  rule := orderly.fresh (system P)
  inv := SingleInv P
  stmts _ := True
  pre := Piloted Fine
  ended _ _ _ := True

def Closes (σ σ' : State) : Prop := ∀ k x', σ'.rounds.row k = some x' → x'.status.isOpen →
  ∃ x, σ.rounds.row k = some x ∧ x.status.isOpen

variable {P : Params} {σ σ' : State} {w w' : GameWorld} {i n k : ℕ} {s : Stmt} {r : game.Reply s}
  {o : Oracle} {st : EngineState} {ph : Phase} {p : Point}

lemma noneOpen_of_openRounds (h : σ.openRounds = []) : NoneOpen σ := by
  intro k x hx
  by_contra hopen
  have hmem : (k, x) ∈ σ.openRounds := mem_openRounds.2 ⟨hx, by simpa using hopen⟩
  rw [h] at hmem
  cases hmem

section Closes

lemma closes_of_rounds (h : σ'.rounds = σ.rounds) : Closes σ σ' := fun _ x hx ho => ⟨x, h ▸ hx, ho⟩

lemma Aside.closes (h : Aside n σ σ') : Closes σ σ' := by
  intro k x' hx' ho
  rcases h.round k with hk | ⟨x, y, hx, hy, -, -, -, hst⟩
  · exact ⟨x', hk ▸ hx', ho⟩
  · obtain rfl := Option.some.inj (hx'.symm.trans hy)
    rcases hst with hst | hst
    · exact ⟨x, hx, hst ▸ ho⟩
    · rw [hst] at ho
      cases ho

lemma NoneOpen.closes (h : NoneOpen σ) (hc : Closes σ σ') : NoneOpen σ' := by
  intro k x hx
  by_contra ho
  obtain ⟨y, hy, hyo⟩ := hc k x hx (by simpa using ho)
  rw [h k y hy] at hyo
  cases hyo

lemma OnlyOpen.closes (h : OnlyOpen k σ) (hc : Closes σ σ') : OnlyOpen k σ' := by
  intro j x hx ho
  obtain ⟨y, hy, hyo⟩ := hc j x hx ho
  exact h j y hy hyo

lemma AtMostOne.closes (h : AtMostOne σ) (hc : Closes σ σ') : AtMostOne σ' := by
  intro j k x y hx hy hxo hyo
  obtain ⟨x', hx', hxo'⟩ := hc j x hx hxo
  obtain ⟨y', hy', hyo'⟩ := hc k y hy hyo
  exact h j k x' y' hx' hy' hxo' hyo'

lemma NoneOpen.only (h : NoneOpen σ) : OnlyOpen k σ := by
  intro j x hx ho
  rw [h j x hx] at ho
  cases ho

lemma OnlyOpen.atMostOne (h : OnlyOpen k σ) : AtMostOne σ :=
  fun i j x y hx hy hxo hyo => (h i x hx hxo).trans (h j y hy hyo).symm

lemma Ready.closes (h : Ready n σ ph) (hc : Closes σ σ') (hst : (σ'.nodes n).state = (σ.nodes n).state) :
    Ready n σ' ph := by
  unfold Ready at h ⊢
  split_ifs at h ⊢
  · exact NoneOpen.closes h hc
  · exact h.imp fun s hs => ⟨hst.trans hs.1, hs.2.closes hc⟩

lemma exec_opens (h : exec P o i s σ = some (r, σ')) : Closes σ σ' ∨
    (∃ seed crash ends, s = .createRound seed crash ends ∧ ∀ j, j ≠ σ.rounds.next →
      σ'.rounds.row j = σ.rounds.row j) ∨
    ∃ k d, s = .updateRound k d ∧ d.status.any Phase.isOpen ∧ ∀ j, j ≠ k →
      σ'.rounds.row j = σ.rounds.row j := by
  cases s with
  | createRound seed crash ends =>
      refine .inr (.inl ⟨seed, crash, ends, rfl, fun j hj => ?_⟩)
      rcases exec_roundChange h j with hk | ⟨hn, -⟩ | _ | _
      · exact hk
      · exact absurd hn hj
  | updateRound k d =>
      by_cases hopen : d.status.any Phase.isOpen
      · refine .inr (.inr ⟨k, d, rfl, hopen, fun j hj => ?_⟩)
        cases exec_roundChange h j with
        | kept hk => exact hk
        | updated => exact absurd rfl hj
      · refine .inl fun j x hx ho => ?_
        cases exec_roundChange h j with
        | kept hk => exact ⟨x, hk ▸ hx, ho⟩
        | @updated _ old hold hrow =>
            obtain rfl := Option.some.inj (hrow.symm.trans hx)
            refine ⟨old, hold, ?_⟩
            cases hst : d.status with
            | none => simpa [RoundData.apply, hst] using ho
            | some ph =>
                rw [hst] at hopen
                simp only [RoundData.apply, hst, Option.getD_some] at ho
                exact absurd ho hopen
  | stampCrashed k =>
      refine .inl fun j x hx ho => ?_
      cases exec_roundChange h j with
      | kept hk => exact ⟨x, hk ▸ hx, ho⟩
      | @stamped old hold hrow =>
          obtain rfl := Option.some.inj (hrow.symm.trans hx)
          exact ⟨old, hold, ho⟩
  | _ => exact .inl (closes_of_rounds (exec_rounds h rfl))

lemma only_of_others (h : OnlyOpen k σ) (hothers : ∀ j, j ≠ k → σ'.rounds.row j = σ.rounds.row j) :
    OnlyOpen k σ' := by
  intro j x hx ho
  by_contra hj
  exact hj (h j x (hothers j hj ▸ hx) ho)

end Closes

section Step

lemma one_step (hi : SingleInv P w) (hp : Piloted Fine i s w) (hd : Driven i s w.log)
    (hexec : exec P o i s w.state = some (r, σ')) : AtMostOne σ' := by
  rcases exec_opens hexec with hc | ⟨seed, crash, ends, rfl, hothers⟩ | ⟨k, d, rfl, hopen, hothers⟩
  · exact hi.one.closes hc
  · obtain ⟨m, hm, -⟩ := hd rfl
    obtain ⟨-, hnone⟩ := hp.fine rfl m hm nofun
    exact (only_of_others hnone.only hothers).atMostOne
  · obtain ⟨m, hm, -⟩ := hd hopen
    obtain ⟨-, honly⟩ := hp.fine hopen m hm nofun
    exact (only_of_others honly hothers).atMostOne

lemma armed_of_drives (hfine : Fine n w.state s) (hd : s.drives) (hexec : exec P o i s w.state = some (r, σ')) :
    Armed (fun n σ _ => Ready n σ) n σ' := by
  obtain ⟨hidle, hfine⟩ := hfine
  intro due ph ht
  rcases exec_arms hexec hd ht with hold | ⟨harms, hst, hrounds⟩
  · cases hold.symm.trans hidle
  · have hready : Ready n w.state ph := by cases harms <;> exact hfine
    exact hready.closes (closes_of_rounds hrounds) hst

lemma armed_step (hi : SingleInv P w) (hp : Piloted Fine i s w) (hr : orderly.act i o s w)
    (hexec : exec P o i s w.state = some (r, σ')) {c : Option ℕ}
    (hh : helm (w.answer i s r σ').log = some (n, c)) : Armed (fun n σ _ => Ready n σ) n σ' := by
  rcases helm_answer hp hr.1 hexec hh with ⟨hc, rfl⟩ | ⟨hs, hfine⟩ | ⟨hs, haside, hhelm⟩
  · exact hi.armed n c hc
  · exact armed_of_drives hfine hs hexec
  · intro due ph ht
    rcases hhelm with ⟨c', hc'⟩ | ⟨rfl, -⟩
    · rcases exec_timer hexec hs ht with hold | ⟨rfl, hrace, hw⟩
      · exact (hi.armed n c' hc' due ph hold).closes (Aside.closes haside) haside.state
      · obtain rfl : ph = .waiting := hw
        rcases hr.2.1 n rfl hrace with hstopped | ⟨-, hnone⟩
        · rw [hi.reigns.runs n c' hc'] at hstopped
          cases hstopped
        · exact (noneOpen_of_openRounds hnone).closes (Aside.closes haside)
    · rcases exec_timer hexec hs ht with hold | ⟨h, -⟩
      · rw [hr.2.2 n rfl] at hold
        cases hold
      · cases h

lemma single_step (hi : SingleInv P w) (hp : Piloted Fine i s w) (ha : (single P).Answers i s w r w') :
    SingleInv P w' := by
  obtain ⟨o, σ', hr, hexec, rfl⟩ := ha
  exact ⟨one_step hi hp hr.1 hexec, hi.reigns.answer hexec, fun n c => armed_step hi hp hr hexec⟩

lemma single_moves (hi : SingleInv P w) (hm : (single P).Moves w w') : SingleInv P w' := by
  have hreigns : Reigns P w' := hi.reigns.moves hm
  have hone : AtMostOne w'.state := hi.one.closes (closes_of_rounds (moves_tables hm).rounds)
  rcases hm with ⟨j, e, a, p, hr, he, rfl⟩ | ⟨j, -, rfl⟩
  · refine ⟨hone, hreigns, fun n c hh due ph ht => ?_⟩
    obtain ⟨⟨c', hc'⟩, haside⟩ := helm_move he hh
    cases environment_nodeMove he n with
    | kept hk => exact (hi.armed n c' hc' due ph (hk ▸ ht)).closes (Aside.closes haside) haside.state
    | fired _ _ hk | lost hk | booted hk =>
        rw [World.move_state, hk] at ht
        cases ht
    | overrun hrace hk =>
        rw [World.move_state, hk] at ht
        obtain ⟨-, rfl⟩ := Prod.mk.inj (Option.some.inj ht)
        rcases hr.1 _ rfl hrace with hstopped | ⟨-, hnone⟩
        · rw [hi.reigns.runs n c' hc'] at hstopped
          cases hstopped
        · exact (noneOpen_of_openRounds hnone).closes (Aside.closes haside)
  · exact ⟨hone, hreigns, hi.armed⟩

lemma single_steered : Steered (single P) where
  act _ _ _ _ h := h.1
  env _ _ _ h := h.2
  pre _ _ _ hp := hp.stamps_drives

end Step

section Course

def Knows (n : ℕ) (σ : State) : Point → Prop
  | .done => True
  | .began => Idle n σ
  | .enter ph => Idle n σ ∧ Ready n σ ph
  | .created s => Idle n σ ∧ OnlyOpen s.roundId σ
  | .entered _ s => Idle n σ ∧ (σ.nodes n).state = some s ∧ OnlyOpen s.roundId σ
  | .written ph s => Idle n σ ∧ (σ.nodes n).state = some s ∧ OnlyOpen s.roundId σ ∧
      (ph = .completed → NoneOpen σ)
  | .found c | .dated c _ => Idle n σ ∧ OnlyOpen c.1 σ
  | .resumed c _ => Idle n σ ∧ (σ.nodes n).state = some (memoryOf c) ∧ OnlyOpen c.1 σ

abbrev At (P : Params) (n i : ℕ) (p : Point) : GameWorld → Prop := AtHelm P n i (Knows n · p)

lemma Knows.aside (h : Knows n σ p) (ha : Aside n σ σ') (ht : Idle n σ → Idle n σ') : Knows n σ' p := by
  have hc : Closes σ σ' := Aside.closes ha
  cases p with
  | done => trivial
  | began => exact ht h
  | enter ph => exact ⟨ht h.1, h.2.closes hc ha.state⟩
  | created s => exact ⟨ht h.1, h.2.closes hc⟩
  | entered ph s => exact ⟨ht h.1, ha.state.trans h.2.1, h.2.2.closes hc⟩
  | written ph s =>
      exact ⟨ht h.1, ha.state.trans h.2.1, h.2.2.1.closes hc, fun hph => (h.2.2.2 hph).closes hc⟩
  | found c | dated c _ => exact ⟨ht h.1, h.2.closes hc⟩
  | resumed c _ => exact ⟨ht h.1, ha.state.trans h.2.1, h.2.2.closes hc⟩

/-- The others do not arm the timer of the current routine: their transitions may not fail. -/
lemma idle_disturbed (hd : (single P).Disturbs i w w') (hs : Steers n i w.log) (hs' : Steers n i w'.log)
    (h : Idle n w.state) : Idle n w'.state := by
  have hexcused {j : ℕ} (hj : j ≠ i) (hm : MayFail n j w) : False := by
    rcases hm with hstopped | ⟨hsteers, -⟩
    · rw [hd.1.reigns.runs n _ hs] at hstopped
      cases hstopped
    · exact hj (hs.unique hsteers).2
  rcases hd.2.2 with (⟨k, e, a, p, hr, he, rfl⟩ | ⟨k, -, rfl⟩) | ⟨j, s, r, hj, -, hp, o, a, hr, hexec, rfl⟩
  · rw [World.move_state]
    cases environment_nodeMove he n with
    | kept hk => exact (congrArg Node.timer hk).trans h
    | fired _ _ hk | lost hk | booted hk => exact congrArg Node.timer hk
    | @overrun j hrace hk =>
        by_cases hj : j = i
        · subst hj
          rw [World.move_log, Steers, helm, helmAfter, hs] at hs'
          simp at hs'
        · exact (hexcused hj (hr.1 _ rfl hrace)).elim
  · exact h
  · rw [World.answer_state]
    have hdrives : s.drives = false := by
      by_contra hdr
      obtain ⟨m, hm, -⟩ := hr.1 (by simpa using hdr)
      exact hj (hs.unique hm).2
    by_contra hne
    obtain ⟨t, ht⟩ := Option.ne_none_iff_exists'.1 hne
    rcases exec_timer hexec hdrives ht with hold | ⟨rfl, hrace, -⟩
    · cases hold.symm.trans h
    · exact hexcused hj (hr.2.1 n rfl hrace)

lemma stable_at (p : Point) : (single P).Stable i (At P n i p) :=
  single_steered.stable fun _ _ hd hs hs' ha h => h.aside ha (idle_disturbed hd hs hs')

lemma at_done (h : At P n i p w) : At P n i .done w := h.mono fun _ _ => trivial

lemma leads_same (hd : s.drives = false) (hs : s.stampsStart = false) (hb : ∀ m, s ≠ .beginStart m)
    (hl : ∀ m, s ≠ .raceLost m) : (single P).Leads i s (At P n i p) (At P n i p) fun _ => At P n i p := by
  refine AtHelm.leads_same hb (fun _ _ _ => .of_not_drives hd hs) fun w w' r hi _ hk ha => ?_
  refine hk.aside (single_steered.answers ha (.of_not_drives hd hs) hd) fun hidle => ?_
  obtain ⟨o, σ', -, hexec, rfl⟩ := ha
  by_contra hne
  obtain ⟨t, ht⟩ := Option.ne_none_iff_exists'.1 hne
  rcases exec_timer hexec hd ht with hold | ⟨rfl, -⟩
  · cases hold.symm.trans hidle
  · exact hl n rfl

lemma leads_to {q : s.Result → Point} (hb : ∀ m, s ≠ .beginStart m)
    (hst : ∀ k d, s = .updateRound k d → d.startedAt.isSome → d.status = some .running)
    (hf : ∀ σ, Knows n σ p → Fine n σ s)
    (hk : ∀ σ σ' a, Knows n σ p → exec P .ok i s σ = some (.ok a, σ') → Knows n σ' (q a))
    (hv : s.isView = false) :
    (single P).Leads i s (At P n i p) (At P n i .done) fun a => At P n i (q a) :=
  AtHelm.leads_to hb (fun _ _ hw => .of_helm hw hst (hf _)) fun _ _ a _ _ _ hkn ⟨_, _, _, hexec, hw'⟩ => by
    rw [hw']
    exact hk _ _ a hkn (perform_of_ok hexec hv)

lemma leads_done (hd : s.drives = false) (hs : s.stampsStart = false) (hb : ∀ m, s ≠ .beginStart m) :
    (single P).Leads i s (At P n i .done) (At P n i .done) fun _ => At P n i .done :=
  AtHelm.leads_same hb (fun _ _ _ => .of_not_drives hd hs) fun _ _ _ _ _ _ _ => trivial

lemma idle_of_nodes (hs : s.movesNode = false) (hexec : exec P o i s σ = some (r, σ')) (h : Idle n σ) :
    Idle n σ' := by
  rw [Idle, exec_nodes hexec hs]
  exact h

lemma leads_aside (hd : s.drives = false) (hs : s.stampsStart = false) (hb : ∀ m, s ≠ .beginStart m)
    (hl : ∀ m, s ≠ .raceLost m) : (single P).Leads i s (At P n i p) (At P n i .done) fun _ => At P n i p :=
  (leads_same hd hs hb hl).imp fun _ => at_done

lemma knows_created {seed crash ends id : ℕ} (h : Knows n σ (.enter .waiting))
    (hexec : exec P .ok i (.createRound seed crash ends) σ = some (.ok id, σ')) :
    Knows n σ' (.created ⟨id, seed, .waiting, ends, none, crash⟩) := by
  have hnone : NoneOpen σ := h.2
  refine ⟨idle_of_nodes rfl hexec h.1, only_of_others hnone.only fun j hj => ?_⟩
  cases exec_roundChange hexec j with
  | kept hk => exact hk
  | created hn => exact absurd (hn.trans (exec_createRound hexec).1.symm) hj

lemma knows_opened {u : Unit} (h : Knows n σ (.created st))
    (hexec : exec P .ok i (.setState n st) σ = some (.ok u, σ')) : Knows n σ' (.written .waiting st) := by
  obtain rfl := exec_setState hexec
  exact ⟨by simpa [Idle] using h.1, by simp, h.2, nofun⟩

lemma knows_entered {ms : ℕ} (hph : ph ≠ .waiting) (h : Knows n σ (.enter ph))
    (hexec : exec P .ok i (.enterPhase n ph ms) σ = some (.ok st, σ')) : Knows n σ' (.entered ph st) := by
  obtain ⟨hidle, hready⟩ := h
  obtain ⟨s, hs, honly⟩ : ∃ s, (σ.nodes n).state = some s ∧ OnlyOpen s.roundId σ := by
    simpa [Ready, hph] using hready
  obtain ⟨s', hs', rfl, rfl⟩ := exec_enterPhase hexec
  obtain rfl := Option.some.inj (hs.symm.trans hs')
  exact ⟨by simpa [Idle] using hidle, by simp, honly⟩

lemma noneOpen_of_completed {d : RoundData} {u : Unit} (h : OnlyOpen k σ) (hst : d.status = some .completed)
    (hexec : exec P o i (.updateRound k d) σ = some (.ok u, σ')) : NoneOpen σ' := by
  intro j x hx
  by_contra ho
  rw [Bool.not_eq_false] at ho
  obtain ⟨y, hy, hrow⟩ := exec_updateRound hexec
  by_cases hj : j = k
  · subst hj
    obtain rfl := Option.some.inj (hrow.symm.trans hx)
    simp [RoundData.apply, hst, Phase.isOpen] at ho
  · cases exec_roundChange hexec j with
    | kept hk => exact hj (h j x (hk ▸ hx) ho)
    | updated => exact hj rfl

lemma knows_written {u : Unit} (hph : ph ≠ .waiting) (h : Knows n σ (.entered ph st))
    (hexec : exec P .ok i (.updateRound st.roundId (ph.data st)) σ = some (.ok u, σ')) :
    Knows n σ' (.written ph st) := by
  obtain ⟨hidle, hst, honly⟩ := h
  refine ⟨idle_of_nodes rfl hexec hidle, ?_, only_of_others honly fun j hj => ?_, ?_⟩
  · rw [exec_nodes hexec rfl]
    exact hst
  · cases exec_roundChange hexec j with
    | kept hk => exact hk
    | updated => exact absurd rfl hj
  · rintro rfl
    exact noneOpen_of_completed honly rfl hexec

lemma ready_of_written {next : Phase} (h : Knows n σ (.written ph st)) (hnext : Precedes ph next) :
    Ready n σ next := by
  obtain ⟨-, hst, honly, hnone⟩ := h
  cases hnext with
  | completed => exact hnone rfl
  | waiting | betting | crashed | settling => exact ⟨st, hst, honly⟩

lemma leads_found : (single P).Leads i .findOpenRounds (At P n i .began) (At P n i .done) fun rounds w =>
    (rounds = [] → At P n i (.enter .waiting) w) ∧
      ∀ c stale, rounds = c :: stale → c.2.status.isOpen ∧ At P n i (.found c) w := by
  intro w hi hw
  refine ⟨.of_looks (n := n) rfl, fun r w' ha hi' => ⟨hw.answers ha nofun fun _ _ => trivial, ?_⟩⟩
  rintro rounds rfl
  have hrounds : w.state.openRounds = rounds ∧ w.state = w'.state := by
    obtain ⟨o, σ', -, hexec, rfl⟩ := ha
    exact exec_findOpenRounds hexec
  refine ⟨?_, ?_⟩
  · rintro rfl
    refine hw.answers ha nofun fun _ h => hrounds.2 ▸ ⟨h, noneOpen_of_openRounds hrounds.1⟩
  · rintro c stale rfl
    obtain ⟨hrow, hopen⟩ := mem_openRounds.1 (hrounds.1 ▸ List.mem_cons_self : c ∈ w.state.openRounds)
    refine ⟨hopen, hw.answers ha nofun fun _ h => hrounds.2 ▸ ⟨h, fun j x hx ho => ?_⟩⟩
    exact hi.one j c.1 x c.2 hx hrow ho hopen

lemma leads_closed (c : ℕ × Round) :
    (single P).Leads i (.updateRound c.1 { status := some .completed, settles := true })
      (At P n i (.found c)) (At P n i .done) fun _ => At P n i (.enter .waiting) := by
  refine AtHelm.leads_to nofun (fun _ _ _ => .of_not_drives rfl rfl) fun w w' a _ _ _ hk ha => ?_
  obtain ⟨o, σ', -, hexec, rfl⟩ := ha
  exact ⟨idle_of_nodes rfl hexec hk.1, noneOpen_of_completed hk.2 rfl hexec⟩

lemma course (n i : ℕ) : Course (single P) n i (At P n i) where
  stable := stable_at
  done _ _ := at_done
  looks p s hs _ := leads_same (Stmt.looks_drives hs) (Stmt.looks_stamps hs) (by rintro m rfl; cases hs)
    (by rintro m rfl; cases hs)
  reads ph := by
    refine AtHelm.leads_to nofun (fun w _ _ => ⟨nofun, fun _ _ _ h => absurd rfl (h n)⟩) ?_
    rintro w w' a - - - hk ⟨o, σ', -, hexec, rfl⟩
    exact (exec_readState hexec).2 ▸ hk
  stop := leads_done rfl rfl nofun
  lost := leads_done rfl rfl nofun
  retry := leads_to nofun nofun (fun _ h => h) (fun _ _ _ _ _ => trivial) rfl
  created seed crash ends := leads_to nofun nofun (fun _ h => h) (fun _ _ _ => knows_created) rfl
  opened s := leads_to nofun nofun (fun _ h => ⟨h.1, trivial⟩) (fun _ _ _ => knows_opened) rfl
  entered ph ms hph := leads_to nofun nofun (fun _ h => ⟨h.1, trivial⟩) (fun _ _ _ => knows_entered hph) rfl
  written ph s hph := leads_to nofun (fun _ _ => Phase.data_stamps) (fun _ h => ⟨h.1, h.2.2⟩)
    (fun _ _ _ => knows_written hph) rfl
  revealed s := leads_aside rfl rfl nofun nofun
  settled s := leads_aside rfl rfl nofun nofun
  armed ph next s hf := leads_to nofun nofun (fun _ h => ⟨h.1, ready_of_written h hf⟩)
    (fun _ _ _ _ _ => trivial) rfl
  armedCrash s := leads_to nofun nofun (fun _ h => ⟨h.1, s, h.2.1, h.2.2.1⟩) (fun _ _ _ _ _ => trivial) rfl
  began := AtHelm.leads_began (fun _ => .of_not_drives rfl rfl) fun w w' _ ⟨o, σ', hr, hexec, hw'⟩ => by
    obtain ⟨-, rfl⟩ := exec_beginStart hexec
    have hidle : (w.state.nodes n).timer = none := hr.2.2 n rfl
    rw [hw']
    simpa [Knows, Idle] using hidle
  found := leads_found
  closedExtra c seed := leads_same rfl rfl nofun nofun
  settledExtra _ _ := leads_same rfl rfl nofun nofun
  closed := leads_closed
  dated c := leads_aside (p := .found c) rfl rfl nofun nofun
  resumed c t := leads_to nofun nofun (fun _ h => ⟨h.1, trivial⟩) (fun _ _ _ h hexec => by
    obtain rfl := exec_setState hexec
    exact ⟨by simpa [Idle] using h.1, by simp, h.2⟩) rfl
  rearmed c t ms ph hr := leads_to nofun nofun (fun _ h => ⟨h.1, by
    cases hr <;> exact ⟨_, h.2.1, h.2.2⟩⟩) (fun _ _ _ _ _ => trivial) rfl
  overdue c t a w hst ha hdue hw := hw.mono fun _ h => ⟨h.1, _, h.2.1, h.2.2⟩
  reread c t hst w hi hw := by
    refine ⟨⟨nofun, fun _ _ _ h => absurd rfl (h n)⟩, fun r w' ha hi' => ?_⟩
    have hat : At P n i (.resumed c t) w' := hw.answers ha nofun fun _ h => by
      obtain ⟨o, σ', -, hexec, rfl⟩ := ha
      exact (exec_readState hexec).2 ▸ h
    exact ⟨at_done hat, fun s _ => ⟨leads_aside rfl rfl nofun nofun, hat⟩⟩
  settledAgain c t _ := leads_aside rfl rfl nofun nofun

lemma single_sound : (single P).Sound := by
  refine sound_of_course (J := At P) (fun _ => trivial) (fun _ _ _ => trivial) course
    (fun _ _ _ _ _ => single_step) (fun _ _ => single_moves)
    (fun n k e w a p hi hr hlog he hnot => .of_call hi.reigns hlog hr.2 he hnot)
    fun n k w a p due ph hi hr hlog he htimer hdue hrun => .of_timer hi.reigns hlog hr.2 he fun c hc => ?_
  obtain ⟨due', ph', htimer', -, -, -, rfl⟩ := environment_fired he
  have hready : Ready n w.state ph := hi.armed n c hc due ph htimer
  exact ⟨by simp [Idle], hready.closes (closes_of_rounds rfl) (by simp)⟩

end Course

/-- From rounds of which at most one is open, at most one is open in every state that is reached. -/
theorem single_open_round {c : GameConfig} (hone : AtMostOne σ)
    (h : orderly.Reaches (system P) (Config.initial σ) c) : AtMostOne c.world.state := by
  have hinitial : SingleInv P ⟨σ, []⟩ := ⟨hone, reigns_initial, nofun⟩
  have hgood : c.Good (single P) := (Config.good_initial hinitial).reaches single_sound h.started.1
  exact hgood.inv.one

section Runs

open Scenario

def blank : State := { idle .waiting with rounds := ∅, nodes := fun _ => ⟨none, none, false, []⟩ }

lemma atMostOne_blank : AtMostOne blank := by
  intro j k x y hx
  cases hx

def opened : List (Machine.Label Event Oracle) :=
  .env (.call (.start 0)) :: acts 0 7 ++ [.act 0 (.seed (some (1, 193)))] ++ acts 0 5 ++
    [.env (.tick 3000), .env (.timer 0)]

/-- The write that opens the betting fails; the retry opens round 1. -/
def retried : List (Machine.Label Event Oracle) :=
  opened ++ acts 1 3 ++ [.act 1 .lost, act 1, .env (.tick 1500), .env (.timer 0), act 2,
    .act 2 (.seed (some (2, 193))), act 2, act 2]

/-- One failed write leaves two rounds open: the retry does not look at the round that it gives up. -/
theorem retry_opens_second : ∃ c : GameConfig, AtMostOne blank ∧
    Rule.free.Reaches (system (params false false)) (Config.initial blank) c ∧ ¬ AtMostOne c.world.state := by
  have hrun : (system (params false false)).run (Config.initial blank) retried = some _ := rfl
  refine ⟨_, atMostOne_blank, Rule.reaches_of_run Rule.obeys_free hrun, fun h => ?_⟩
  cases h 0 1 _ _ rfl rfl rfl rfl

/-- Without the failure the betting opens, and round 0 stays the only one. -/
theorem opened_alone : ∃ c : GameConfig, AtMostOne c.world.state ∧
    (c.world.state.rounds.row 0).map (·.status) = some .betting := by
  have hrun : (system (params false false)).run (Config.initial blank) (opened ++ acts 1 7) = some _ := rfl
  exact ⟨_, single_open_round atMostOne_blank (Rule.reaches_of_run (R := orderly) (by decide) hrun), rfl⟩

end Runs

end VaultRun.Safety.SingleRound
