import VaultRun.Concurrency.Discipline
import VaultRun.Game.Course

/-!
What a call has learnt of the rounds from its own answers, and the rounds that it completes and settles.
-/

namespace VaultRun.Game

open VaultRun.Concurrency Program BetsService GameEngineService

/-- What a call has learnt: the phase it has just entered, and the rounds that it has found open besides the
newest one. -/
structure Notes where
  entered : Option (Phase × EngineState)
  stale : List (ℕ × Round)

def Notes.blank : Notes := ⟨none, []⟩

def Notes.learn (m : Notes) : (s : Stmt) → game.Reply s → Notes
  | .enterPhase _ ph _, .ok st => { m with entered := some (ph, st) }
  | .findOpenRounds, .ok rounds => ⟨none, rounds.tail ++ m.stale⟩
  | _, _ => { m with entered := none }

abbrev notesOf (i : ℕ) (log : List GameEntry) : Notes := foldBy Notes.learn Notes.blank i log

@[reducible] def Phase.hasRun : Phase → Bool
  | running | crashed | settling => true
  | _ => false

lemma Phase.hasRun_iff {ph : Phase} : ph ∈ [Phase.running, .crashed, .settling] ↔ ph.hasRun := by
  cases ph <;> simp

/-- A transition completes the round that it has just entered the last phase of. -/
def Completes (m : Notes) : Stmt → Prop
  | .updateRound k d => d.status = some .completed → ∃ st, m.entered = some (.completed, st) ∧ k = st.roundId
  | _ => True

def SettlesBets (r : ℕ) (s : Stmt) : Prop := s.writesBets → ∃ v d, s = .updateBets v d ∧ v.roundId = some r

structure Orders (args : ℕ → Event) (i : ℕ) (m : Notes) (s : Stmt) : Prop where
  begins : ∀ n, s = .beginStart n → ∃ m, args i = .call (.start m)
  completes : ∀ n, args i = .timer n → Completes m s
  settles : ∀ n r, args i = .onSettle n r → SettlesBets r s
  /-- A start settles a round by its id that it has found stale, and past its start. -/
  names : ∀ n k, s = .emitSettle n (some k) →
    (∃ m, args i = .call (.start m)) ∧ ∃ x, (k, x) ∈ m.stale ∧ x.status.hasRun

variable {P : Params} {args : ℕ → Event} {i n : ℕ} {m : Notes} {s : Stmt} {α : Type} {p : Program game α}

@[reducible] def Stmt.unnamed : Stmt → Bool
  | emitSettle _ r => r.isNone
  | _ => true

@[reducible] def Stmt.unsettling : Stmt → Bool
  | beginStart _ => false
  | updateRound _ d => d.status ≠ some .completed
  | s => s.unnamed

lemma completes_of_unsettling (hs : s.unsettling) : Completes m s := by
  cases s <;> simp_all [Completes]

lemma unnamed_of_unsettling (hs : s.unsettling) : s.unnamed := by
  cases s <;> simp_all

lemma not_begins_of_unsettling (hs : s.unsettling) (k : ℕ) : s ≠ .beginStart k := by
  rintro rfl
  cases hs

lemma unnamed_of_offEngine (hs : s.offEngine) : s.unnamed := by
  cases s <;> simp_all

lemma not_names_of_unnamed (hs : s.unnamed) (n k : ℕ) : s ≠ .emitSettle n (some k) := by
  rintro rfl
  cases hs

section Transition

attribute [local simp] Program.await Option.forall except_forall

lemma orders_of_timer (hi : args i = .timer n) (hb : ∀ k, s ≠ .beginStart k) (hc : Completes m s)
    (hs : s.unnamed) : Orders args i m s :=
  ⟨fun k hk => absurd hk (hb k), fun _ _ => hc, fun _ _ h => absurd (hi.symm.trans h) nofun,
    fun n k h => absurd h (not_names_of_unnamed hs n k)⟩

lemma enter_unsettling (ph : Phase) (hph : ph ≠ .completed) : (enter n ph).Uses fun s : Stmt => s.unsettling := by
  cases ph with
  | completed => exact absurd rfl hph
  | _ => simp [enter, enterWaiting, enterBetting, enterRunning, enterCrashed, enterSettling, whenStateAndLeader,
      whenLeader, stillLeader]

lemma enterCompleted_orders (hi : args i = .timer n) (k : ℕ) (m : Notes) :
    Follows Notes.learn (Orders args i) (fun _ _ => True) (enterCompleted k) m := by
  have hK : Compositional fun (α : Type) (p : Program game α) =>
      ∀ m, Follows Notes.learn (Orders args i) (fun _ _ => True) p m := follows_compositional
  have hstep {α : Type} {p : Program game α} (hp : p.Uses fun s : Stmt => s.unsettling) (m : Notes) :
      Follows Notes.learn (Orders args i) (fun _ _ => True) p m :=
    follows_of_uses hp fun m s hs =>
      orders_of_timer hi (not_begins_of_unsettling hs) (completes_of_unsettling hs) (unnamed_of_unsettling hs)
  have hled : (stillLeader k).Uses fun s : Stmt => s.unsettling := by simp [stillLeader]
  have henter (m : Notes) : Follows Notes.learn (Orders args i) (fun _ _ => True) (do
      let s ← await (.enterPhase k .completed Phase.completed.ms)
      await (.updateRound s.roundId
        { status := some .completed, phaseEndsAt := some s.phaseEndsAt, settles := true })
      await (.mirror k)
      await (.schedule k Phase.completed.ms .waiting)) m := by
    refine follows_await_bind (orders_of_timer hi (by simp) trivial rfl) (fun st => ?_) fun _ => trivial
    refine follows_await_bind (orders_of_timer hi (by simp) (fun _ => ⟨st, rfl, rfl⟩) rfl) (fun _ => ?_)
      fun _ => trivial
    exact hstep (by simp) _
  refine hK.bind (hstep (await_uses rfl)) (fun state : Option EngineState => ?_) m
  split
  · exact hK.ret _
  · refine hK.bind (hstep hled) fun led => ?_
    split
    · exact henter
    · exact hK.ret _

lemma transition_orders (hi : args i = .timer n) (k : ℕ) (ph : Phase) (m : Notes) :
    Follows Notes.learn (Orders args i) (fun _ _ => True) (transition k ph) m := by
  have hK : Compositional fun (α : Type) (p : Program game α) =>
      ∀ m, Follows Notes.learn (Orders args i) (fun _ _ => True) p m := follows_compositional
  have hstep {α : Type} {p : Program game α} (hp : p.Uses fun s : Stmt => s.unsettling) (m : Notes) :
      Follows Notes.learn (Orders args i) (fun _ _ => True) p m :=
    follows_of_uses hp fun m s hs =>
      orders_of_timer hi (not_begins_of_unsettling hs) (completes_of_unsettling hs) (unnamed_of_unsettling hs)
  have henter (m : Notes) : Follows Notes.learn (Orders args i) (fun _ _ => True) (enter k ph) m := by
    by_cases hph : ph = .completed
    · subst hph
      exact enterCompleted_orders hi k m
    · exact hstep (enter_unsettling ph hph) m
  have hsafe (m : Notes) : Follows Notes.learn (Orders args i) (fun _ _ => True) (safe k ph) m :=
    hK.catching (hK.bind henter fun _ => hstep (await_uses (s := Stmt.raceWon k) rfl))
      (fun _ => hstep (await_uses (s := Stmt.raceLost k) rfl)) m
  exact hK.bind hsafe (fun _ => hK.ret _) m

end Transition

section Start

variable {k : ℕ}

lemma orders_of_start (hi : args i = .call (.start k))
    (ho : ∀ n k, s = .emitSettle n (some k) → ∃ x, (k, x) ∈ m.stale ∧ x.status.hasRun) : Orders args i m s :=
  ⟨fun _ _ => ⟨k, hi⟩, fun _ h => absurd (hi.symm.trans h) nofun, fun _ _ h => absurd (hi.symm.trans h) nofun,
    fun n q h => ⟨⟨k, hi⟩, ho n q h⟩⟩

lemma orders_of_unnamed (hi : args i = .call (.start k)) (hs : s.unnamed) : Orders args i m s :=
  orders_of_start hi fun n k h => absurd h (not_names_of_unnamed hs n k)

def Finds (rounds : List (ℕ × Round)) (m : Notes) : Prop := ∀ c ∈ rounds, c ∈ m.stale

lemma learn_finds {rounds : List (ℕ × Round)} {r : game.Reply s} (h : Finds rounds m) :
    Finds rounds (m.learn s r) := by
  intro c hc
  have hfound := h c hc
  cases s with
  | findOpenRounds =>
      cases r with
      | ok found => exact List.mem_append_right _ hfound
      | error e => exact hfound
  | enterPhase => cases r <;> exact hfound
  | _ => exact hfound

lemma closeStaleExtra_orders (hi : args i = .call (.start k)) {rounds : List (ℕ × Round)} {x : ℕ × Round}
    (hx : x ∈ rounds) (hm : Finds rounds m) : Follows Notes.learn (Orders args i) (fun _ m => Finds rounds m)
      (closeStaleExtra P n x) m := by
  have hK : Compositional fun (α : Type) (p : Program game α) =>
      ∀ m, Finds rounds m → Follows Notes.learn (Orders args i) (fun _ m => Finds rounds m) p m :=
    follows_keeping_compositional
  have hquiet {α : Type} {p : Program game α} (hp : p.Uses fun s : Stmt => s.unnamed) (m : Notes)
      (hm : Finds rounds m) : Follows Notes.learn (Orders args i) (fun _ m => Finds rounds m) p m :=
    follows_of_uses_keeping hp (fun m s hs => orders_of_unnamed hi hs) (fun _ _ _ _ h => learn_finds h) hm
  have hsettle (hrun : x.2.status.hasRun) (m : Notes) (hm : Finds rounds m) :
      Follows Notes.learn (Orders args i) (fun _ m => Finds rounds m) (do
        await (.emitSettle n (some x.1))
        await (.updateRound x.1 { status := some .completed, settles := true })) m := by
    refine follows_await_bind (orders_of_start hi ?_) (fun _ => ?_) fun _ => learn_finds hm
    · rintro n k h
      obtain ⟨-, ⟨⟩⟩ := Stmt.emitSettle.inj h
      exact ⟨x.2, hm x hx, hrun⟩
    · exact follows_await (orders_of_unnamed (s := Stmt.updateRound _ _) hi rfl) fun _ =>
        learn_finds (learn_finds hm)
  unfold closeStaleExtra
  split
  · have hrun : x.2.status.hasRun := Phase.hasRun_iff.1 ‹_›
    refine hK.bind (hquiet (await_uses rfl)) (fun _ => ?_) m hm
    split
    · exact hK.bind (hquiet (await_uses rfl)) fun _ => hsettle hrun
    · exact hsettle hrun
  · exact hquiet ((gameParts_offEngine.closeAndRefundRound x.1).mono fun _ => unnamed_of_offEngine) m hm

attribute [local simp] Program.await Option.forall except_forall in
lemma resumeRound_unnamed (x : ℕ × Round) : (resumeRound P n x).Uses fun s : Stmt => s.unnamed := by
  have henter (ph : Phase) (hph : ph ≠ .completed) : (enter n ph).Uses fun s : Stmt => s.unnamed :=
    (enter_unsettling ph hph).mono fun _ => unnamed_of_unsettling
  have hled : (stillLeader n).Uses fun s : Stmt => s.unnamed := by simp [stillLeader]
  have hcrash : (honorThenCrash P n x.2.crashPoint).Uses fun s : Stmt => s.unnamed := by
    refine uses_compositional.bind hled fun led => ?_
    split
    · refine uses_compositional.bind ?_ fun _ => henter .crashed (by decide)
      exact (gameParts_offEngine.evaluateAutoCashouts uses_compositional n _).mono fun _ => unnamed_of_offEngine
    · trivial
  refine uses_compositional.bind (await_uses rfl) fun now : ℕ => uses_compositional.bind (await_uses rfl)
    fun _ => uses_compositional.bind (await_uses rfl) fun _ => ?_
  split
  · simp
  · simp
  · dsimp only
    split
    · simp
    · exact hcrash
  · simp
  · simp
  · exact henter .waiting (by decide)

lemma start_orders (hi : args i = .call (.start k)) (m : Notes) :
    Follows Notes.learn (Orders args i) (fun _ _ => True) (start P n) m := by
  have hK : Compositional fun (α : Type) (p : Program game α) =>
      ∀ m, Follows Notes.learn (Orders args i) (fun _ _ => True) p m := follows_compositional
  have hquiet {α : Type} {p : Program game α} (hp : p.Uses fun s : Stmt => s.unnamed) (m : Notes) :
      Follows Notes.learn (Orders args i) (fun _ _ => True) p m :=
    follows_of_uses hp fun m s hs => orders_of_unnamed hi hs
  have hoff {α : Type} {p : Program game α} (hp : p.Uses fun s : Stmt => s.offEngine) (m : Notes) :
      Follows Notes.learn (Orders args i) (fun _ _ => True) p m :=
    hquiet (hp.mono fun _ => unnamed_of_offEngine) m
  have hresume (m : Notes) : Follows Notes.learn (Orders args i) (fun _ _ => True) (resumeOrRecover P n) m := by
    refine hK.bind (hoff (gameParts_offEngine.recoverReservingBets 0)) (fun _ m => ?_) m
    refine follows_await_bind (orders_of_unnamed hi rfl) (fun rounds => ?_) fun _ => trivial
    match rounds with
    | [] => trivial
    | x :: stale =>
        have hfinds : Finds stale (m.learn .findOpenRounds (.ok (x :: stale))) :=
          fun y hy => List.mem_append_left _ hy
        refine follows_bind ((follows_loop (J := Finds stale) (T := fun _ _ => True) (fun y hy _ m hm => ?_)
          (fun _ _ _ => trivial) hfinds).mono fun r m _ => ?_)
        · refine (closeStaleExtra_orders hi hy hm).mono fun r m hr => ?_
          cases r <;> first | exact hr | trivial
        · cases r with
          | error e => trivial
          | ok _ =>
              refine hK.bind (hoff (await_uses (s := Stmt.dateNow) rfl)) (fun now : ℕ => ?_) m
              split
              · exact hK.bind (hoff (gameParts_offEngine.closeAndRefundRound _)) fun _ => hK.ret _
              · exact hK.bind (hquiet (resumeRound_unnamed _)) fun _ => hK.ret _
  refine hK.bind (hquiet (await_uses (s := Stmt.beginStart n) rfl)) (fun began : Bool => ?_) m
  split
  · refine hK.bind (hquiet (await_uses (s := Stmt.ensureChain) rfl)) fun _ => ?_
    refine hK.bind (hoff (gameParts_offEngine.recoverStrandedActiveBets 0)) fun _ => ?_
    refine hK.bind hresume fun resumed => ?_
    split
    · exact hK.ret _
    · exact hquiet ((enter_unsettling .waiting (by decide)).mono fun _ => unnamed_of_unsettling)
  · exact hK.ret _

end Start

attribute [local simp] Program.await Option.forall except_forall in
lemma settleRound_settles (r : ℕ) :
    (BetsService.settleRound r).Uses fun s : Stmt => s.offEngine ∧ SettlesBets r s := by
  simp [BetsService.settleRound, SettlesBets]

lemma environment_orders {e : Event} {σ σ' : State} {p : Program game Outcome} (hi : args i = e)
    (he : environment P e i σ = some (σ', some p)) (m : Notes) :
    Follows Notes.learn (Orders args i) (fun _ _ => True) p m := by
  have hK : Compositional fun (α : Type) (p : Program game α) =>
      ∀ m, Follows Notes.learn (Orders args i) (fun _ _ => True) p m := follows_compositional
  rcases environment_starts he with ⟨c, rfl, rfl | ⟨n, r, rfl, rfl⟩⟩ | ⟨n, ph, rfl, rfl⟩
  · by_cases hc : ∃ n, c = .start n
    · obtain ⟨n, rfl⟩ := hc
      exact hK.bind (start_orders hi) (fun _ => hK.ret _) m
    · have hoff := gameParts_offEngine.call (P := P) uses_compositional c (fun n hn => hc ⟨n, hn⟩) fun _ _ => trivial
      refine follows_of_uses hoff fun m s hs => ⟨?_, fun _ h => absurd (hi.symm.trans h) nofun,
        fun _ _ h => absurd (hi.symm.trans h) nofun,
        fun n k h => absurd h (not_names_of_unnamed (unnamed_of_offEngine hs) n k)⟩
      rintro n rfl
      cases hs
  · refine hK.map (fun m => follows_of_uses (settleRound_settles r) (fun m s hs => ?_)) m
    refine ⟨?_, fun _ h => absurd (hi.symm.trans h) nofun, fun n' r' h => ?_,
      fun n k h => absurd h (not_names_of_unnamed (unnamed_of_offEngine hs.1) n k)⟩
    · rintro n rfl
      cases hs.1
    obtain ⟨-, rfl⟩ := Event.onSettle.inj (hi.symm.trans h)
    exact hs.2
  · exact transition_orders hi n ph m

end VaultRun.Game
