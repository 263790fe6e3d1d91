import VaultRun.Game.Routine

/-!
The course of a routine of an engine: the points it passes, and the calls put together from what each of
their statements needs at its point.
-/

namespace VaultRun.Game

open VaultRun.Concurrency Program BetsService GameEngineService

lemma mem_openRounds {σ : State} {c : ℕ × Round} :
    c ∈ σ.openRounds ↔ σ.rounds.row c.1 = some c.2 ∧ c.2.status.isOpen := by
  obtain ⟨k, x⟩ := c
  simp [State.openRounds]

lemma exec_findOpenRounds {P : Params} {o : Oracle} {i : ℕ} {σ σ' : State} {rounds : List (ℕ × Round)}
    (h : exec P o i .findOpenRounds σ = some (.ok rounds, σ')) : σ.openRounds = rounds ∧ σ = σ' := by
  simpa [perform] using perform_of_ok h rfl

/-- Where a routine stands; `enter` is before the phase is entered, `entered` after it, and `written` after
the round has been written. `found`, `dated` and `resumed` are on the way to the resumption of a round. -/
inductive Point
  | done
  | began
  | enter (ph : Phase)
  | created (s : EngineState)
  | entered (ph : Phase) (s : EngineState)
  | written (ph : Phase) (s : EngineState)
  | found (c : ℕ × Round)
  | dated (c : ℕ × Round) (t : ℕ)
  | resumed (c : ℕ × Round) (t : ℕ)

/-- `this.state` when a round has been resumed. -/
abbrev memoryOf (c : ℕ × Round) : EngineState :=
  ⟨c.1, c.2.seedId, c.2.status, c.2.phaseEndsAt.getD 0, c.2.startedAt, c.2.crashPoint⟩

def Phase.data (s : EngineState) : Phase → RoundData
  | running => { status := some .running, phaseEndsAt := some s.phaseEndsAt, startedAt := s.startedAt }
  | crashed => { status := some .crashed, phaseEndsAt := some s.phaseEndsAt, crashes := true }
  | completed => { status := some .completed, phaseEndsAt := some s.phaseEndsAt, settles := true }
  | ph => { status := some ph, phaseEndsAt := some s.phaseEndsAt }

inductive Precedes : Phase → Phase → Prop
  | waiting : Precedes .waiting .betting
  | betting : Precedes .betting .running
  | crashed : Precedes .crashed .settling
  | settling : Precedes .settling .completed
  | completed : Precedes .completed .waiting

inductive Rearms (P : Params) (c : ℕ × Round) (t : ℕ) : ℕ → Phase → Prop
  | waiting (h : c.2.status = .waiting) : Rearms P c t (c.2.phaseEndsAt.getD 0 - t) .betting
  | betting (h : c.2.status = .betting) : Rearms P c t (c.2.phaseEndsAt.getD 0 - t) .running
  | running {a : ℕ} (h : c.2.status = .running) (ha : c.2.startedAt = some a)
      (ht : t < a + P.crashDelay c.2.crashPoint) :
      Rearms P c t (a + P.crashDelay c.2.crashPoint - t) .crashed
  | crashed (h : c.2.status = .crashed) : Rearms P c t (c.2.phaseEndsAt.getD 0 - t) .settling
  | settling (h : c.2.status = .settling) : Rearms P c t (c.2.phaseEndsAt.getD 0 - t) .completed

/-- A statement of a routine of node `n` that changes nothing about the engine. -/
@[reducible] def Stmt.looks (n : ℕ) : Stmt → Bool
  | assertStillLeader m | mirror m | raceWon m => m = n
  | ensureChain | allocateSeed | stampCrashed _ => true
  | s => s.offEngine

/-- Round `k` may be completed by the way: it is not the one that the routine is about. -/
def Point.MayClose : Point → ℕ → Prop
  | done, _ => True
  | found c, k => k ≠ c.1
  | _, _ => False

def Stmt.Spares (p : Point) (s : Stmt) : Prop := ∀ k d, s = .updateRound k d → p.MayClose k

/-- What each statement of the routines of node `n`, run by call `i`, makes of what the routine knows. -/
structure Course {P : Params} (C : Contract (system P)) (n i : ℕ) (J : Point → GameWorld → Prop) :
    Prop where
  stable : ∀ p, C.Stable i (J p)
  done : ∀ p w, J p w → J .done w
  looks : ∀ p s, s.looks n → s.Spares p → C.Leads i s (J p) (J p) fun _ => J p
  reads : ∀ ph, C.Leads i (.readState n) (J (.enter ph)) (J .done) fun _ => J (.enter ph)
  stop : C.Leads i (.stop n) (J .done) (J .done) fun _ => J .done
  lost : C.Leads i (.raceLost n) (J .done) (J .done) fun _ => J .done
  retry : C.Leads i (.schedule n 1500 .waiting) (J (.enter .waiting)) (J .done) fun _ => J .done
  created : ∀ seed crash ends, C.Leads i (.createRound seed crash ends) (J (.enter .waiting)) (J .done)
    fun id => J (.created ⟨id, seed, .waiting, ends, none, crash⟩)
  opened : ∀ s, C.Leads i (.setState n s) (J (.created s)) (J .done) fun _ => J (.written .waiting s)
  entered : ∀ ph ms, ph ≠ .waiting →
    C.Leads i (.enterPhase n ph ms) (J (.enter ph)) (J .done) fun s => J (.entered ph s)
  written : ∀ ph s, ph ≠ .waiting →
    C.Leads i (.updateRound s.roundId (ph.data s)) (J (.entered ph s)) (J .done) fun _ => J (.written ph s)
  revealed : ∀ s, C.Leads i (.revealSeed s.seedId) (J (.written .crashed s)) (J .done)
    fun _ => J (.written .crashed s)
  settled : ∀ s, C.Leads i (.emitSettle n none) (J (.written .settling s)) (J .done)
    fun _ => J (.written .settling s)
  armed : ∀ ph next s, Precedes ph next →
    C.Leads i (.schedule n ph.ms next) (J (.written ph s)) (J .done) fun _ => J .done
  armedCrash : ∀ s, C.Leads i (.scheduleCrash n) (J (.written .running s)) (J .done) fun _ => J .done
  began : C.Leads i (.beginStart n) (J .done) (J .done) fun b w => J .done w ∧ (b = true → J .began w)
  found : C.Leads i .findOpenRounds (J .began) (J .done) fun rounds w =>
    (rounds = [] → J (.enter .waiting) w) ∧
      ∀ c stale, rounds = c :: stale → c.2.status.isOpen ∧ J (.found c) w
  closedExtra : ∀ c seed, C.Leads i (.revealSeed seed) (J (.found c)) (J (.found c)) fun _ => J (.found c)
  settledExtra : ∀ c r, C.Leads i (.emitSettle n (some r)) (J (.found c)) (J (.found c))
    fun _ => J (.found c)
  closed : ∀ c, C.Leads i (.updateRound c.1 { status := some .completed, settles := true })
    (J (.found c)) (J .done) fun _ => J (.enter .waiting)
  dated : ∀ c, C.Leads i .dateNow (J (.found c)) (J .done) fun t => J (.dated c t)
  resumed : ∀ c t, C.Leads i (.setState n (memoryOf c)) (J (.dated c t)) (J .done)
    fun _ => J (.resumed c t)
  rearmed : ∀ c t ms ph, Rearms P c t ms ph →
    C.Leads i (.schedule n ms ph) (J (.resumed c t)) (J .done) fun _ => J .done
  overdue : ∀ c t a w, c.2.status = .running → c.2.startedAt = some a →
    a + P.crashDelay c.2.crashPoint ≤ t → J (.resumed c t) w → J (.enter .crashed) w
  reread : ∀ c t, c.2.status = .crashed → C.Leads i (.readState n) (J (.resumed c t)) (J .done) fun s w =>
    C.Leads i (.revealSeed ((s.map (·.seedId)).getD c.2.seedId)) (J (.resumed c t)) (J .done)
      (fun _ => J (.resumed c t)) ∧ J (.resumed c t) w
  settledAgain : ∀ c t, c.2.status = .settling →
    C.Leads i (.emitSettle n none) (J (.resumed c t)) (J .done) fun _ => J (.resumed c t)

section Spare

@[reducible] def Stmt.spare : Stmt → Bool
  | updateRound _ _ => false
  | s => s.offEngine

variable {P : Params} {s : Stmt} {p : Point}

lemma offEngine_of_spare (hs : s.spare) : s.offEngine := by
  cases s <;> simp_all

lemma spares_of_spare (hs : s.spare) : s.Spares p := by
  rintro k d rfl
  cases hs

lemma spare_of_ofWallet {m u : Key → Prop} (s : Stmt) (hs : s.ofWallet) (_ : ∀ k ∈ s.key, m k)
    (_ : ∀ k ∈ s.undone, u k) : s.spare := by
  cases s <;> simp_all

attribute [local simp] Program.await Option.forall except_forall

lemma cashOut_spare (n u : ℕ) (q : Panel) (m : Option ℕ) :
    (BetsService.cashOut P n u q m).Uses fun s : Stmt => s.spare := by
  have hcredit (b : ℕ) (bet : Bet) (payout : ℤ) :
      (P.wallet.credit bet.walletId payout .payoutCredit (.payout b) b).Uses fun s : Stmt => s.spare :=
    wallet_credit_uses (m := fun _ => True) (u := fun _ => True) spare_of_ofWallet trivial _ _ _ _
  cases m <;> simp [cashOut, multiplierAt, BetsService.claimWin, payWin, hcredit]

lemma evaluateAutoCashouts_spare (n m : ℕ) :
    (BetsService.evaluateAutoCashouts P n m).Uses fun s : Stmt => s.spare := by
  refine uses_compositional.bind (await_uses rfl) fun state => ?_
  split
  · trivial
  · split
    · trivial
    · refine uses_compositional.bind (await_uses rfl) fun due => uses_loop _ fun results b _ => ?_
      refine uses_compositional.bind (uses_compositional.attempt (cashOut_spare _ _ _ _)) fun r => ?_
      split <;> trivial

lemma recoverReservingBets_spare (t : ℕ) :
    (GameEngineService.recoverReservingBets P t).Uses fun s : Stmt => s.spare := by
  have hrollback (b : ℕ × Bet) :
      (P.wallet.rollback b.2.walletId (.debit b.2.slot) b.1).Uses fun s : Stmt => s.spare :=
    wallet_rollback_uses (m := fun _ => True) (u := fun _ => True) spare_of_ofWallet trivial _ _
  have hcredit (b : ℕ × Bet) : (P.wallet.credit b.2.walletId b.2.amount .refund (.restartRefund b.1) b.1).Uses
      fun s : Stmt => s.spare :=
    wallet_credit_uses (m := fun _ => True) (u := fun _ => True) spare_of_ofWallet trivial _ _ _ _
  have hone (n : ℕ) (b : ℕ × Bet) : (recoverOne P n b).Uses fun s : Stmt => s.spare := by
    simp [recoverOne, claimSlot, reverseSlot, hrollback, hcredit]
  have hcutoff : (cutoffOf t).Uses fun s : Stmt => s.spare := by simp [cutoffOf]
  exact uses_compositional.bind hcutoff fun _ => uses_compositional.bind (await_uses rfl) fun _ =>
    uses_loop _ fun n b _ => hone n b

lemma reverse_spare (w : ℕ) (q : ReverseParams) : (P.wallet.reverse w q).Uses fun s : Stmt => s.spare :=
  wallet_reverse_uses (m := fun _ => True) (u := fun _ => True) spare_of_ofWallet w trivial trivial

lemma recoverStrandedActiveBets_spare (t : ℕ) :
    (GameEngineService.recoverStrandedActiveBets P t).Uses fun s : Stmt => s.spare := by
  have hone (n : ℕ) (b : ℕ × Bet) : (healOne P n b).Uses fun s : Stmt => s.spare := by
    simp [healOne, reverse_spare]
  exact uses_compositional.bind (await_uses rfl) fun _ => uses_compositional.bind (await_uses rfl)
    fun _ => uses_loop _ fun n b _ => hone n b

lemma refunds_spare (bets : List (ℕ × Bet)) :
    (loop (refundOne P) () bets).Uses fun s : Stmt => s.spare :=
  uses_loop _ fun _ b _ => by simp [refundOne, reverse_spare]

end Spare

lemma openRounds_distinct {P : Params} {C : Contract (system P)} {i : ℕ} {rounds : List (ℕ × Round)}
    {w w' : GameWorld} (ha : C.Answers i .findOpenRounds w (.ok rounds) w') : (rounds.map (·.1)).Nodup := by
  obtain ⟨o, σ', -, hexec, -⟩ := ha
  obtain ⟨rfl, -⟩ := exec_findOpenRounds hexec
  have hperm := (List.perm_insertionSort (fun a b : ℕ × Round => b.2.createdAt ≤ a.2.createdAt)
    (w.state.rounds.findMany fun _ r => r.status.isOpen)).map (·.1)
  exact hperm.nodup_iff.2 (w.state.rounds.nodup_findMany)

namespace Course

variable {P : Params} {C : Contract (system P)} {n i : ℕ} {J : Point → GameWorld → Prop}
  (h : Course C n i J)
include h

lemma looks_bind {α : Type} {p : Point} {s : Stmt} {f : s.Result → Program game α} (hs : s.looks n)
    (hsp : s.Spares p) (hf : ∀ a, Carries C i (J p) (J .done) (f a)) :
    Carries C i (J p) (J .done) (await s >>= f) :=
  carries_keeps_bind (h.done p) ((h.looks p s hs hsp).keeps (h.stable p)) hf

lemma mirror_bind {α : Type} {p : Point} {f : Unit → Program game α}
    (hf : ∀ a, Carries C i (J p) (J .done) (f a)) : Carries C i (J p) (J .done) (await (.mirror n) >>= f) :=
  h.looks_bind (by simp) (by rintro _ _ ⟨⟩) hf

lemma leads_bind {α : Type} {p : Point} {s : Stmt} {f : s.Result → Program game α}
    {Q : s.Result → GameWorld → Prop} (hs : C.Leads i s (J p) (J .done) Q)
    (hf : ∀ a, Carries C i (Q a) (J .done) (f a)) : Carries C i (J p) (J .done) (await s >>= f) :=
  carries_await_bind (h.stable p) (h.stable .done) hs hf

lemma leads {p : Point} {s : Stmt} {Q : s.Result → GameWorld → Prop}
    (hs : C.Leads i s (J p) (J .done) Q) : Carries C i (J p) (J .done) (await s) :=
  carries_of_leads (h.stable p) (h.stable .done) hs

lemma ret {α : Type} (p : Point) (a : α) : Carries C i (J p) (J .done) (.ret a) :=
  carries_ret (h.stable p) (h.done p) a

lemma keeps_of_offEngine {α : Type} {q : Program game α} {p : Point}
    (hq : q.Uses fun s : Stmt => s.offEngine ∧ s.Spares p) : Keeps C i (J p) q := by
  refine keeps_of_uses hq (h.stable p) fun s w hs hi hw => ?_
  have hlooks : s.looks n := by
    obtain ⟨hoff, -⟩ := hs
    cases s <;> simp_all
  obtain ⟨hp, hk⟩ := h.looks p s hlooks hs.2 w hi hw
  exact ⟨hp, fun r w' hr hi' => (hk r w' hr hi').1⟩

lemma keeps_of_spare {α : Type} {q : Program game α} {p : Point} (hq : q.Uses fun s : Stmt => s.spare) :
    Keeps C i (J p) q :=
  h.keeps_of_offEngine (hq.mono fun _ hs => ⟨offEngine_of_spare hs, spares_of_spare hs⟩)

lemma parts : GameParts P fun _ q => Keeps C i (J .done) q :=
  gameParts_offEngine.imp fun hq => h.keeps_of_offEngine (hq.mono fun _ hs => ⟨hs, fun _ _ _ => trivial⟩)

section Transitions

lemma whenLeader {p : Point} {k : Program game Unit} (hk : Carries C i (J p) (J .done) k) :
    Carries C i (J p) (J .done) (GameEngineService.whenLeader n k) := by
  unfold GameEngineService.whenLeader stillLeader
  rw [Program.bind_assoc]
  refine h.looks_bind (by simp) (by rintro _ _ ⟨⟩) fun led => ?_
  cases led with
  | true => exact hk
  | false =>
      rw [if_neg Bool.false_ne_true, Program.bind_assoc]
      exact (h.leads_bind h.stop fun _ => h.ret .done ()).of_imp (h.done p)

lemma whenStateAndLeader {ph : Phase} {k : Program game Unit}
    (hk : Carries C i (J (.enter ph)) (J .done) k) :
    Carries C i (J (.enter ph)) (J .done) (GameEngineService.whenStateAndLeader n k) := by
  refine h.leads_bind (h.reads ph) fun state => ?_
  split
  · exact h.ret _ ()
  · exact h.whenLeader hk

lemma enterWaiting : Carries C i (J (.enter .waiting)) (J .done) (GameEngineService.enterWaiting n) := by
  refine h.whenLeader (h.looks_bind rfl (by rintro _ _ ⟨⟩) fun seed => ?_)
  split
  · exact h.leads h.retry
  · refine h.looks_bind rfl (by rintro _ _ ⟨⟩) fun now => carries_attempt_bind (h.stable _)
      (h.created _ _ _) (fun id => ?_) fun e => ?_
    · exact h.leads_bind (h.opened _) fun _ => h.mirror_bind fun _ => h.leads (h.armed _ _ _ .waiting)
    · dsimp only
      split
      · exact h.leads h.stop
      · exact carries_raise (h.stable _) (h.done _) e

/-- The transitions between the first two statements and the last two. -/
lemma enters {ph : Phase} (hph : ph ≠ .waiting) (ms : ℕ) {f : EngineState → Program game Unit}
    (hf : ∀ s, Carries C i (J (.written ph s)) (J .done) (f s)) :
    Carries C i (J (.enter ph)) (J .done) (GameEngineService.whenStateAndLeader n do
      let s ← await (.enterPhase n ph ms)
      await (.updateRound s.roundId (ph.data s))
      f s) :=
  h.whenStateAndLeader (h.leads_bind (h.entered ph ms hph) fun s =>
    h.leads_bind (h.written ph s hph) fun _ => hf s)

lemma enterBetting : Carries C i (J (.enter .betting)) (J .done) (GameEngineService.enterBetting n) :=
  h.enters (by decide) _ fun s => h.mirror_bind fun _ => h.leads (h.armed _ _ s .betting)

lemma enterRunning : Carries C i (J (.enter .running)) (J .done) (GameEngineService.enterRunning n) :=
  h.enters (by decide) _ fun s => h.mirror_bind fun _ => h.leads (h.armedCrash s)

lemma enterCrashed : Carries C i (J (.enter .crashed)) (J .done) (GameEngineService.enterCrashed n) :=
  h.enters (by decide) _ fun s => h.leads_bind (h.revealed s) fun _ => h.mirror_bind fun _ =>
    h.leads (h.armed _ _ s .crashed)

lemma enterSettling : Carries C i (J (.enter .settling)) (J .done) (GameEngineService.enterSettling n) :=
  h.enters (by decide) _ fun s => h.mirror_bind fun _ => h.leads_bind (h.settled s) fun _ =>
    h.leads (h.armed _ _ s .settling)

lemma enterCompleted : Carries C i (J (.enter .completed)) (J .done) (GameEngineService.enterCompleted n) :=
  h.enters (by decide) _ fun s => h.mirror_bind fun _ => h.leads (h.armed _ _ s .completed)

lemma transition (ph : Phase) : Carries C i (J (.enter ph)) (J .done) (Game.transition n ph) := by
  have henter : Carries C i (J (.enter ph)) (J .done) (enter n ph) := by
    cases ph with
    | waiting => exact h.enterWaiting
    | betting => exact h.enterBetting
    | running => exact h.enterRunning
    | crashed => exact h.enterCrashed
    | settling => exact h.enterSettling
    | completed => exact h.enterCompleted
  refine carries_bind (carries_catching (carries_bind henter fun _ => ?_) fun _ => h.leads h.lost) fun _ =>
    h.ret .done _
  exact carries_of_leads (h.stable _) (h.stable _) (h.looks .done _ (by simp) fun _ _ _ => trivial)

end Transitions

section Start

lemma honorThenCrash (crashPoint : ℕ) :
    Carries C i (J (.enter .crashed)) (J .done) (GameEngineService.honorThenCrash P n crashPoint) :=
  h.whenLeader (carries_keeps_bind (h.done _)
    (h.keeps_of_spare (evaluateAutoCashouts_spare n crashPoint)) fun _ => h.enterCrashed)

lemma resumeRound {c : ℕ × Round} (hopen : c.2.status.isOpen)
    (hstarted : c.2.status ∈ [Phase.running, .crashed, .settling] → c.2.startedAt.isSome) :
    Carries C i (J (.found c)) (J .done) (GameEngineService.resumeRound P n c) := by
  refine h.leads_bind (h.dated c) fun t => h.leads_bind (h.resumed c t) fun _ =>
    h.mirror_bind fun _ => ?_
  split
  · exact h.leads (h.rearmed c t _ _ (.waiting ‹_›))
  · exact h.leads (h.rearmed c t _ _ (.betting ‹_›))
  · obtain ⟨a, ha⟩ := Option.isSome_iff_exists.1 (hstarted (by simp [*]))
    dsimp only
    rw [ha, Option.getD_some]
    split
    · exact h.leads (h.rearmed c t _ _ (.running ‹_› ha ‹_›))
    · exact (h.honorThenCrash _).of_imp fun w hw => h.overdue c t a w ‹_› ha (not_lt.1 ‹_›) hw
  · refine h.leads_bind (h.reread c t ‹_›) fun s w hi hw => ?_
    exact h.leads_bind hw.1 (fun _ => h.looks_bind rfl (by rintro _ _ ⟨⟩) fun _ =>
      h.mirror_bind fun _ => h.leads (h.rearmed c t _ _ (.crashed ‹_›))) w hi hw.2
  · exact h.leads_bind (h.settledAgain c t ‹_›) fun _ => h.leads (h.rearmed c t _ _ (.settling ‹_›))
  · simp_all [Phase.isOpen]

lemma closeAndRefundRound_bind {α : Type} {c : ℕ × Round} {f : Unit → Program game α}
    (hf : Carries C i (J (.enter .waiting)) (J .done) (f ())) :
    Carries C i (J (.found c)) (J .done) (GameEngineService.closeAndRefundRound P c.1 >>= f) := by
  unfold GameEngineService.closeAndRefundRound
  rw [Program.bind_assoc]
  refine h.looks_bind rfl (by rintro _ _ ⟨⟩) fun bets => ?_
  rw [Program.bind_assoc]
  refine carries_keeps_bind (h.done _) (h.keeps_of_spare (refunds_spare bets)) fun _ => ?_
  exact h.leads_bind (h.closed c) fun _ => hf

lemma closeStaleExtra {c r : ℕ × Round} (hr : r.1 ≠ c.1) :
    Keeps C i (J (.found c)) (GameEngineService.closeStaleExtra P n r) := by
  have hK : Compositional fun α p => @Keeps _ _ _ _ _ α _ C i (J (.found c)) p :=
    keeps_compositional (h.stable _)
  have hlooks {s : Stmt} (hs : s.looks n) (hsp : s.Spares (.found c)) : Keeps C i (J (.found c)) (await s) :=
    (h.looks _ s hs hsp).keeps (h.stable _)
  have hclose : Keeps C i (J (.found c)) (await (.updateRound r.1 { status := some .completed, settles := true })) :=
    hlooks (by simp) fun k d heq => by
      obtain ⟨rfl, -⟩ := Stmt.updateRound.inj heq
      exact hr
  unfold GameEngineService.closeStaleExtra
  split
  · refine hK.bind ((h.closedExtra c _).keeps (h.stable _)) fun _ => ?_
    have hend : Keeps C i (J (.found c)) (do
        await (.emitSettle n (some r.1))
        await (.updateRound r.1 { status := some .completed, settles := true })) :=
      hK.bind ((h.settledExtra c r.1).keeps (h.stable _)) fun _ => hclose
    split
    · exact hK.bind (hlooks rfl nofun) fun _ => hend
    · exact hend
  · exact hK.bind (hlooks rfl nofun) fun bets => hK.bind (h.keeps_of_spare (refunds_spare bets)) fun _ => hclose

/-- `start` goes on with a round that it has resumed, and with a new one otherwise. -/
lemma resumeOrRecover_bind {f : Bool → Program game Unit}
    (hresumed : Carries C i (J .done) (J .done) (f true))
    (hclosed : Carries C i (J (.enter .waiting)) (J .done) (f false)) :
    Carries C i (J .began) (J .done) (GameEngineService.resumeOrRecover P n >>= f) := by
  unfold GameEngineService.resumeOrRecover
  rw [Program.bind_assoc]
  refine carries_keeps_bind (h.done _) (h.keeps_of_spare (recoverReservingBets_spare 0)) fun _ => ?_
  rw [Program.bind_assoc]
  refine h.leads_bind (h.found.with_answer openRounds_distinct) fun rounds w hi hw => ?_
  match rounds, hw with
  | [], ⟨_, hw⟩ => exact hclosed w hi (hw.1 rfl)
  | c :: stale, ⟨hdistinct, hw⟩ =>
      obtain ⟨hopen, hc⟩ := hw.2 c stale rfl
      rw [List.map_cons, List.nodup_cons] at hdistinct
      have hstale (r : ℕ × Round) (hr : r ∈ stale) : r.1 ≠ c.1 := by
        intro heq
        exact hdistinct.1 (heq ▸ List.mem_map_of_mem hr)
      refine Carries.of_imp (J := J (.found c)) ?_ (fun _ h => h) w hi hc
      rw [Program.bind_assoc]
      refine carries_keeps_bind (h.done _)
        (keeps_loop (h.stable _) _ fun r hr _ => h.closeStaleExtra (hstale r hr)) fun _ => ?_
      rw [Program.bind_assoc]
      refine h.looks_bind rfl (by rintro _ _ ⟨⟩) fun now => ?_
      split
      · rw [Program.bind_assoc]
        exact h.closeAndRefundRound_bind hclosed
      · rw [Program.bind_assoc]
        refine carries_bind (h.resumeRound hopen fun hst => ?_) fun _ => hresumed
        by_contra hne
        simp_all [unresumable]

lemma start : Carries C i (J .done) (J .done) (GameEngineService.start P n) := by
  refine h.leads_bind h.began fun began => ?_
  cases began with
  | false => exact (h.ret .done ()).of_imp fun w hw => hw.1
  | true =>
      refine Carries.of_imp (?_ : Carries C i (J .began) (J .done) _) fun w hw => hw.2 rfl
      refine h.looks_bind rfl (by rintro _ _ ⟨⟩) fun _ => ?_
      refine carries_keeps_bind (h.done _) (h.keeps_of_spare (recoverStrandedActiveBets_spare 0)) fun _ => ?_
      exact h.resumeOrRecover_bind (h.ret .done ()) h.enterWaiting

lemma call (c : Call) (hc : ∀ m, c = .start m → m = n) : Carries C i (J .done) (J .done) (c.prog P) := by
  by_cases hstart : ∃ m, c = .start m
  · obtain ⟨m, rfl⟩ := hstart
    obtain rfl := hc m rfl
    exact carries_bind h.start fun _ => h.ret .done _
  · exact h.parts.call (keeps_compositional (h.stable _)) c
        (fun m hm => hstart ⟨m, hm⟩) fun _ _ => trivial

end Start

end Course

lemma environment_fired {P : Params} {k n : ℕ} {σ σ' : State} {p : Program game Outcome}
    (h : environment P (.timer n) k σ = some (σ', some p)) : ∃ due ph,
      (σ.nodes n).timer = some (due, ph) ∧ due ≤ σ.now ∧ (σ.nodes n).running ∧ p = transition n ph ∧
      σ' = σ.updateNode n fun m => { m with
        timer := none, racing := (k, σ.now + P.phaseDeadlineMs) :: m.racing } := by
  simp only [environment, State.fire] at h
  split at h
  · cases h
  · split_ifs at h with hdue hrun
    · obtain ⟨rfl, hp⟩ := Prod.mk.inj (Option.some.inj h)
      exact ⟨_, _, ‹_›, not_lt.1 hdue, hrun, (Option.some.inj hp).symm, rfl⟩
    · cases (Prod.mk.inj (Option.some.inj h)).2

/-- A contract about the engines is sound once it has a course for every routine. -/
lemma sound_of_course {P : Params} {C : Contract (system P)} {J : ℕ → ℕ → Point → GameWorld → Prop}
    (hstmts : ∀ s, C.stmts s) (hended : ∀ i r w, C.ended i r w) (hcourse : ∀ n i, Course C n i (J n i))
    (hstep : ∀ i s w r w', C.inv w → C.pre i s w → C.Answers i s w r w' → C.inv w')
    (hmove : ∀ w w', C.inv w → C.Moves w w' → C.inv w')
    (hcall : ∀ n k e w a p, C.inv w → C.rule.env k e w → (∀ x ∈ w.log, ∀ s, ¬ x.Issues k s) →
      environment P e k w.state = some (a, some p) → (∀ m, e ≠ .timer m) → J n k .done (w.move k e a))
    (hfire : ∀ n k w a p due ph, C.inv w → C.rule.env k (.timer n) w → (∀ x ∈ w.log, ∀ s, ¬ x.Issues k s) →
      environment P (.timer n) k w.state = some (a, some p) → (w.state.nodes n).timer = some (due, ph) →
      due ≤ w.state.now → (w.state.nodes n).running → J n k (.enter ph) (w.move k (.timer n) a)) :
    C.Sound where
  step i s w r w' _ := hstep i s w r w'
  move := hmove
  start k e w a p hi hlog hr he hi' := by
    have huses {α : Type} (q : Program game α) : q.Uses C.stmts := by
      induction q with
      | ret a => trivial
      | raise e => trivial
      | call s k ih => exact ⟨hstmts s, ih⟩
    refine ⟨huses p, ?_⟩
    rcases environment_starts he with ⟨c, rfl, hc⟩ | ⟨n, ph, -, rfl⟩
    · have hnot : ∀ m, e ≠ .timer m := by
        rintro m rfl
        rcases hc with hc | ⟨_, _, hc, -⟩ <;> cases hc
      have hn : ∃ n, ∀ m, c = .start m → m = n := by
        cases c with
        | start m => exact ⟨m, fun m' h => (Call.start.inj h).symm⟩
        | _ => exact ⟨0, nofun⟩
      obtain ⟨n, hn⟩ := hn
      exact ((hcourse n k).call c hn _ hi' (hcall n k e w a _ hi hr hlog he hnot)).mono
        fun r w _ _ => hended k _ w
    · obtain ⟨due, ph, htimer, hdue, hrun, rfl, -⟩ := environment_fired he
      exact ((hcourse n k).transition ph _ hi' (hfire n k w a _ due ph hi hr hlog he htimer hdue hrun)).mono
        fun r w _ _ => hended k _ w
  kill i w _ _ _ := fun w' _ _ => hended i none w'

end VaultRun.Game
