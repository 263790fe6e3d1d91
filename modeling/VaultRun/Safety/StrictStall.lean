import VaultRun.Concurrency.Alone
import VaultRun.Safety.OneActiveEpoch

/-!
In strict mode a round that gets no seed waits for a block that an epoch is committed to, where the store has
an epoch to serve or to wait for when the round begins; where it has none, nothing ever commits to a block.
-/

namespace VaultRun.Safety.StrictStall

open VaultRun.Concurrency VaultRun.Data VaultRun.Fairness Program

section Condition

variable (σ : State) (k : ℕ)

def Unused : Prop := ∃ n x, 1 ≤ n ∧ σ.seeds.row (k, n) = some x ∧ σ.used (k, n) = false

/-- Epoch `k` is committed to a block and in the queue, and has a seed once that block is final. -/
def Awaited : Prop :=
  ∃ c, σ.chains.row k = some c ∧ (c.status = .pending ∨ c.status = .armed) ∧ c.saltSource = .ethBlock ∧
    (∃ t, c.targetBlock = some t ∧ t ≠ 0) ∧ Unused σ k

/-- An epoch on a block waits for its turn, or is being served and has a seed left. -/
def Supplied : Prop :=
  (∃ k, Awaited σ k) ∨ ∃ k c, σ.findActive = some (k, c) ∧ c.saltSource = .ethBlock ∧ Unused σ k

/-- One epoch at most is active, and those in the queue have their seeds, and are on a block while pending. -/
structure Orderly : Prop where
  active : OneActiveEpoch.AtMostOneActive σ
  pending : ∀ k c, σ.chains.row k = some c → c.status = .pending → c.saltSource = .ethBlock
  queued : ∀ k c, σ.chains.row k = some c → c.status = .pending ∨ c.status = .armed →
    c.saltSource = .ethBlock → (∃ t, c.targetBlock = some t ∧ t ≠ 0) ∧ Unused σ k

end Condition

@[reducible] def sideBySide (n : ℕ) : Event → Bool
  | .call (.maintain _) => n = 0
  | .call .allocateSeed => n = 1
  | _ => false

/-- One `enterWaiting`: its upkeep and its lookup of a seed, side by side, and an oracle that answers. -/
@[reducible] def entersWaiting : FairRule where
  act _ o _ _ := o ≠ .lost ∧ o ≠ .unacked
  kill _ _ := False
  env n e _ := sideBySide n e

/-- When both are through and there is no seed, an epoch on a block is being waited for. -/
def AwaitsBlock (P : Params) (σ : State) : Prop :=
  ∀ c : FairConfig, entersWaiting.Reaches (system P) (Config.initial σ) c →
    c.threads[0]? = some (.live (.ret .done)) → c.threads[1]? = some (.live (.ret (.seed none))) →
      ∃ k, Awaited c.world.state k

section Discipline

@[reducible] def keepsTo (i : ℕ) : Stmt → Prop
  | .createRound _ _ => False
  | .updateChain _ d => i = 1 ∨ d.status = some .armed
  | _ => True

variable {P : Params} {i : ℕ}

lemma keepsTo_of_onEpochs (s : Stmt) (h : s.onEpochs) : keepsTo i s := by
  cases s with
  | updateChain | createRound => cases h
  | _ => trivial

lemma maintain_uses {node : ℕ} : (FairnessService.maintain P node).Uses (keepsTo i) := by
  refine uses_bind.2 ⟨await_uses trivial, fun b _ => ?_⟩
  cases b with
  | false => trivial
  | true =>
      refine uses_bind.2 ⟨uses_catching.2 ⟨?_, fun _ _ => trivial⟩, fun _ _ => await_uses trivial⟩
      refine uses_bind.2 ⟨await_uses trivial, fun l _ => uses_bind.2 ⟨uses_loop () fun _ x _ => ?_, fun _ _ => ?_⟩⟩
      · refine uses_bind.2 ⟨tryResolve_uses keepsTo_of_onEpochs, fun r _ => ?_⟩
        cases r with
        | none => trivial
        | some x => exact uses_bind.2 ⟨await_uses (.inr rfl), fun _ _ => trivial⟩
      · refine uses_bind.2 ⟨await_uses trivial, fun r _ => ?_⟩
        cases r with
        | none => trivial
        | some c =>
            refine uses_bind.2 ⟨await_uses trivial, fun n _ => ?_⟩
            split_ifs
            · exact uses_bind.2 ⟨createEpoch_uses keepsTo_of_onEpochs, fun _ _ => trivial⟩
            · trivial

lemma allocateSeed_uses : (FairnessService.allocateSeed P).Uses (keepsTo 1) := by
  have hensure : (FairnessService.ensureActiveChain P).Uses (keepsTo 1) :=
    ensureActiveChain_uses keepsTo_of_onEpochs fun _ _ => .inl rfl
  refine uses_bind.2 ⟨hensure, fun r _ => ?_⟩
  cases r with
  | none => trivial
  | some c =>
      refine uses_bind.2 ⟨await_uses trivial, fun s _ => ?_⟩
      cases s with
      | some a => trivial
      | none =>
          refine uses_bind.2 ⟨await_uses (.inl rfl), fun _ _ => uses_bind.2 ⟨hensure, fun r _ => ?_⟩⟩
          cases r with
          | none => trivial
          | some c =>
              refine uses_bind.2 ⟨await_uses trivial, fun s _ => ?_⟩
              cases s <;> trivial

def Keeping (P : Params) (i : ℕ) (m : Memory) (s : Stmt) : Prop := m.Due P s ∧ keepsTo i s

lemma not_createRound {m : Memory} {s : Stmt} {id : ℕ × ℕ} {x : ℕ} (h : Keeping P i m s) : s ≠ .createRound id x := by
  rintro rfl
  exact h.2

lemma keeping_of_environment {n : ℕ} {e : Event} {w : FairWorld} {a : State} {p : Program fairness Outcome}
    (hr : entersWaiting.env n e w) (h : environment P e w.state = some (a, some p)) :
    Follows Memory.learn (Keeping P n) FairnessService.Hands p {} := by
  refine (heeds_of_environment (σ := w.state) h).and_uses ?_
  cases e with
  | call c =>
      obtain rfl : p = _ := (Option.some.inj (Prod.mk.inj (Option.some.inj h)).2).symm
      cases c with
      | maintain node => exact uses_map.2 maintain_uses
      | allocateSeed =>
          obtain rfl : n = 1 := of_decide_eq_true hr
          exact uses_map.2 allocateSeed_uses
      | _ => cases hr
  | boot m => cases hr

end Discipline

section Held

variable {σ σ' : State} {o : Oracle} {s : Stmt} {r : fairness.Reply s} {w : FairWorld} {i k : ℕ} {t : Option ℕ}
  {P : Params}

lemma Unused.step (h : Unused σ k) (hs : exec o s σ = some (r, σ')) (hround : ∀ id c, s ≠ .createRound id c) :
    Unused σ' k := by
  obtain ⟨n, x, hn, hx, hu⟩ := h
  have hused : σ'.used (k, n) = false := by
    have hrounds : σ'.rounds = σ.rounds := by
      cases exec_roundChange hs with
      | kept h => exact h
      | created _ _ => exact absurd rfl (hround _ _)
    rw [State.used, hrounds]
    exact hu
  cases exec_seedChange hs (k, n) with
  | kept h => exact ⟨n, x, hn, h.trans hx, hused⟩
  | inserted hfree hy _ =>
      rw [hfree n (List.getElem?_eq_some_iff.1 hy).1] at hx
      cases hx
  | revealed _ h => exact ⟨n, _, hn, h, hused⟩

/-- Epoch `k` is on a block and has a seed, and no call has seen anything else. -/
structure Held (k : ℕ) (t : Option ℕ) (w : FairWorld) : Prop where
  row : ∃ c, w.state.chains.row k = some c ∧ c.saltSource = .ethBlock ∧ c.targetBlock = t
  seed : Unused w.state k
  active : ∀ i c, (memory i w.log).active = some (k, c) → c.saltSource = .ethBlock
  armed : ∀ i c, (memory i w.log).armed = some (k, c) → c.saltSource = .ethBlock
  found : ∀ i, (memory i w.log).unused ≠ some (k, none)

lemma Held.not_exhausted {d : ChainData} (h : Held k t w) (hd : (memory i w.log).Writes P k d) :
    d.status ≠ some .exhausted := by
  have hserves {c : Chain} (hc : c.saltSource = .ethBlock) (hr : FairnessService.refuses P c) : False := by
    simp [FairnessService.refuses, hc] at hr
  cases hd with
  | retireActive ha hr => exact (hserves (h.active i _ ha) hr).elim
  | retireArmed ha hr => exact (hserves (h.armed i _ ha) hr).elim
  | exhaust hu => exact absurd hu (h.found i)
  | promoteArmed | promoteSalted | salt | arm => nofun

lemma memory_answer {j : ℕ} {p : Memory → Prop} (h : p (memory j w.log))
    (hlearn : i = j → p ((memory i w.log).learn s r)) : p (memory j (w.answer i s r σ').log) := by
  change p (memory j (.answered i s r w.state σ' :: w.log))
  by_cases hij : i = j
  · subst hij
    rw [memory, foldBy_self]
    exact hlearn rfl
  · rwa [memory, foldBy_answered hij]

lemma Held.step (h : Held k t w) (hs : exec o s w.state = some (r, σ')) (hround : ∀ id c, s ≠ .createRound id c) :
    Held k t (w.answer i s r σ') where
  row := by
    obtain ⟨c, hc, hsrc, ht⟩ := h.row
    obtain ⟨c', hc', hsrc', ht', -⟩ := chain_of_exec hs hc
    exact ⟨c', hc', hsrc'.trans hsrc, ht'.trans ht⟩
  seed := h.seed.step hs hround
  active := by
    obtain ⟨c₀, hc₀, hsrc, -⟩ := h.row
    intro j
    refine memory_answer (p := fun m => ∀ c, m.active = some (k, c) → c.saltSource = .ethBlock) (h.active j) ?_
    rintro rfl c hc
    rcases Memory.active_learn hs hc with hc | ⟨-, hrow, -⟩
    · exact h.active i c hc
    · obtain rfl := Option.some.inj (hrow.symm.trans hc₀)
      exact hsrc
  armed := by
    obtain ⟨c₀, hc₀, hsrc, -⟩ := h.row
    intro j
    refine memory_answer (p := fun m => ∀ c, m.armed = some (k, c) → c.saltSource = .ethBlock) (h.armed j) ?_
    rintro rfl c hc
    rcases Memory.armed_learn hs hc with ⟨hc, -⟩ | ⟨-, -, hrow, -⟩
    · exact h.armed i c hc
    · obtain rfl := Option.some.inj (hrow.symm.trans hc₀)
      exact hsrc
  found := by
    obtain ⟨n, x, hn, hx, hu⟩ := h.seed
    intro j
    refine memory_answer (p := fun m => m.unused ≠ some (k, none)) (h.found j) ?_
    rintro rfl hc
    rcases Memory.unused_learn hc with ⟨hc, -⟩ | heq
    · exact h.found i hc
    · cases heq
      rw [nextUnusedSeed_none (exec_nextUnusedSeed hs).2 hn hx] at hu
      cases hu

end Held

section Queue

variable {P : Params} {σ σ' : State} {o : Oracle} {s : Stmt} {r : fairness.Reply s} {w : FairWorld} {i k : ℕ}
  {t : Option ℕ}

def Waits (k : ℕ) (w : FairWorld) : Prop :=
  ∃ c, w.state.chains.row k = some c ∧
    (c.status = .pending ∨ c.status = .armed ∨ c.status = .active ∧ (memory 1 w.log).promoted = some k)

lemma state_of_env {n : ℕ} {e : Event} {a : State} {p : Option (Program fairness Outcome)}
    (hr : entersWaiting.env n e w) (h : environment P e w.state = some (a, p)) : a = w.state := by
  cases e with
  | call c => exact (Prod.mk.inj (Option.some.inj h)).1.symm
  | boot m => cases hr

lemma Held.move {n : ℕ} {e : Event} (h : Held k t w) : Held k t (w.move n e w.state) :=
  ⟨h.row, h.seed, h.active, h.armed, h.found⟩

lemma ok_of_updateChain {d : ChainData} {c : Chain} {r : fairness.Reply (.updateChain k d)}
    (ho : o ≠ .lost ∧ o ≠ .unacked) (hc : σ.chains.row k = some c)
    (h : exec o (.updateChain k d) σ = some (r, σ')) : r = .ok (k, d.apply c) := by
  cases o with
  | ok =>
      have hp : perform (.updateChain k d) σ = some (r, σ') := h
      simp only [perform, hc] at hp
      exact (Prod.mk.inj (Option.some.inj hp)).1.symm
  | lost => exact absurd rfl ho.1
  | unacked => exact absurd rfl ho.2
  | _ => cases h

lemma not_promoted {j : ℕ} {d : ChainData} (hd : Keeping P i (memory i w.log) (.updateChain j d))
    (hp : (memory 1 w.log).promoted = some k) : d.status ≠ some .active := by
  obtain ⟨hw, hi⟩ := hd
  intro hact
  obtain rfl : i = 1 := hi.resolve_right (by simp [hact])
  cases hw with
  | promoteArmed _ hn _ _ | promoteSalted _ hn _ _ =>
      rw [hp] at hn
      cases hn
  | _ => cases hact

lemma Waits.step (h : Waits k w) (hh : Held k t w) (ho : o ≠ .lost ∧ o ≠ .unacked)
    (hd : Keeping P i (memory i w.log) s) (hs : exec o s w.state = some (r, σ')) : Waits k (w.answer i s r σ') := by
  obtain ⟨c, hc, hst⟩ := h
  have hpro (hp : (memory 1 w.log).promoted = some k) : (memory 1 (w.answer i s r σ').log).promoted = some k := by
    refine memory_answer (p := fun m => m.promoted = some k) hp ?_
    rintro rfl
    refine Memory.promoted_kept hp ?_
    rintro j d rfl
    refine ⟨not_promoted hd hp, ?_⟩
    rintro rfl
    exact hh.not_exhausted hd.1
  cases exec_chainChange hs k with
  | kept hk => exact ⟨c, hk.trans hc, hst.imp_right (.imp_right (.imp_right hpro))⟩
  | created hn hk =>
      rw [hn, Records.row_next] at hc
      cases hc
  | @updated d old hold hk =>
      obtain rfl := Option.some.inj (hold.symm.trans hc)
      refine ⟨_, hk, ?_⟩
      cases hw : d.status with
      | none =>
          have hsame : (d.apply old).status = old.status := by simp [ChainData.apply, hw]
          rw [hsame]
          exact hst.imp_right (.imp_right (.imp_right hpro))
      | some st =>
          have hnew : (d.apply old).status = st := by simp [ChainData.apply, hw]
          rw [hnew]
          cases st with
          | pending => exact .inl rfl
          | armed => exact .inr (.inl rfl)
          | exhausted => exact absurd hw (hh.not_exhausted hd.1)
          | active =>
              refine .inr (.inr ⟨rfl, ?_⟩)
              obtain rfl : i = 1 := hd.2.resolve_right (by simp [hw])
              obtain rfl := ok_of_updateChain ho hold hs
              change (memory 1 (.answered 1 _ _ w.state σ' :: w.log)).promoted = some k
              rw [memory, foldBy_self]
              simp [Memory.learn, hw]

/-- An epoch that waits in the queue when the round begins is still there when it gets no seed. -/
lemma awaits_of_awaited (h : Awaited σ k) : AwaitsBlock P σ := by
  intro c hc _ hnull
  obtain ⟨x, hx, hst, hsrc, ⟨t, ht, ht0⟩, hu⟩ := h
  have hact (i : ℕ) (o : Oracle) (s : Stmt) (w : FairWorld) (r : fairness.Reply s) (a : State)
      (hw : Held k (some t) w ∧ Waits k w) (ho : entersWaiting.act i o s w) (hd : Keeping P i (memory i w.log) s)
      (he : exec o s w.state = some (r, a)) : Held k (some t) (w.answer i s r a) ∧ Waits k (w.answer i s r a) :=
    ⟨hw.1.step he fun _ _ => not_createRound hd, hw.2.step hw.1 ho hd he⟩
  obtain ⟨⟨hheld, hwaits⟩, hret⟩ := invariant_of_discipline (M := system P) (m := ({} : Memory))
    (φ := Keeping P) (Q := fun _ => FairnessService.Hands) (fun n e w a p hr h => keeping_of_environment hr h) hact
    (fun n e w a p hw hr he => by
      obtain rfl := state_of_env hr he
      exact ⟨hw.1.move, hw.2⟩)
    (fun i w _ hk => hk.elim)
    ⟨⟨⟨x, hx, hsrc, ht⟩, hu, fun _ _ => nofun, fun _ _ => nofun, fun _ => nofun⟩, x, hx, hst.imp_right .inl⟩ hc
  have hnone : (memory 1 c.world.log).promoted = none := ((hret 1 _ hnull none rfl).none rfl).2
  obtain ⟨y, hy, hsrc', ht'⟩ := hheld.row
  obtain ⟨y', hy', hst'⟩ := hwaits
  obtain rfl := Option.some.inj (hy.symm.trans hy')
  refine ⟨k, y, hy, ?_, hsrc', ⟨t, ht', ht0⟩, hheld.seed⟩
  rcases hst' with hp | ha | ⟨-, hp⟩
  · exact .inl hp
  · exact .inr ha
  · rw [hnone] at hp
    cases hp

end Queue

section Serving

variable {P : Params} {σ σ' : State} {o : Oracle} {s : Stmt} {r : fairness.Reply s} {w : FairWorld} {i k : ℕ}
  {t : Option ℕ} {c : Chain}

structure Serving (k : ℕ) (c : Chain) (w : FairWorld) : Prop where
  row : w.state.chains.row k = some c
  active : c.status = .active
  latest : ∀ j d, w.state.chains.row j = some d → d.status = .active → d.epoch ≤ c.epoch
  pendings : ∀ i d, (k, d) ∉ (memory i w.log).pendings
  armed : ∀ i d, (memory i w.log).armed ≠ some (k, d)
  seen : ∀ j d, (memory 1 w.log).active = some (j, d) → j = k
  vacant : (memory 1 w.log).vacant = false

lemma Serving.move {n : ℕ} {e : Event} (h : Serving k c w) : Serving k c (w.move n e w.state) :=
  ⟨h.row, h.active, h.latest, h.pendings, h.armed, h.seen, h.vacant⟩

lemma Serving.not_written {d : ChainData} (h : Serving k c w) (hh : Held k t w)
    (hd : Keeping P i (memory i w.log) (.updateChain k d)) : False := by
  obtain ⟨hw, hi⟩ := hd
  have hex := hh.not_exhausted hw
  cases hw with
  | retireActive | retireArmed | exhaust => exact hex rfl
  | promoteArmed hv | promoteSalted hv =>
      obtain rfl : i = 1 := hi.resolve_right (by simp)
      rw [h.vacant] at hv
      cases hv
  | salt hr | arm hr =>
      obtain ⟨c, hc, -⟩ := hr
      exact h.pendings i c hc

lemma Serving.activates (h : Serving k c w) (hmode : P.requireBlockSalt ∧ P.saltProvider = .ethBlock)
    (hd : Keeping P i (memory i w.log) s) : OneActiveEpoch.activates s = false := by
  by_contra ha
  rw [Bool.not_eq_false] at ha
  have hv := OneActiveEpoch.vacant_of_due hd.1 ha
  cases s with
  | updateChain j d =>
      obtain rfl : i = 1 := hd.2.resolve_right (by simp_all)
      rw [h.vacant] at hv
      cases hv
  | createChain row =>
      cases hd.1.1 with
      | random _ _ _ _ hno => exact hno hmode
      | ethBlock _ _ _ hst => simp [hst] at ha
  | _ => cases ha

lemma Serving.step (h : Serving k c w) (hh : Held k t w) (hmode : P.requireBlockSalt ∧ P.saltProvider = .ethBlock)
    (hd : Keeping P i (memory i w.log) s) (hs : exec o s w.state = some (r, σ')) :
    Serving k c (w.answer i s r σ') where
  row := by
    cases exec_chainChange hs k with
    | kept hk => exact hk.trans h.row
    | created hn _ =>
        have hrow := h.row
        rw [hn, Records.row_next] at hrow
        cases hrow
    | updated _ _ => exact (h.not_written hh hd).elim
  active := h.active
  latest := by
    intro j d hj hst
    obtain ⟨d', hd', hst'⟩ := OneActiveEpoch.active_of_exec hs (h.activates hmode hd) hj hst
    have hsame : d.epoch = d'.epoch := by
      cases exec_chainChange hs j with
      | kept hk => rw [Option.some.inj (hj.symm.trans (hk.trans hd'))]
      | created hn _ =>
          rw [hn, Records.row_next] at hd'
          cases hd'
      | updated hold hk =>
          obtain rfl := Option.some.inj (hold.symm.trans hd')
          obtain rfl := Option.some.inj (hk.symm.trans hj)
          rfl
    exact hsame ▸ h.latest j d' hd' hst'
  pendings := by
    intro j
    refine memory_answer (p := fun m => ∀ d, (k, d) ∉ m.pendings) (h.pendings j) ?_
    rintro rfl d hmem
    rcases Memory.pendings_learn hs hmem with ⟨hmem, -⟩ | ⟨-, -, -, hrow, hst⟩
    · exact h.pendings i d hmem
    · obtain rfl := Option.some.inj (hrow.symm.trans h.row)
      rw [h.active] at hst
      cases hst
  armed := by
    intro j
    refine memory_answer (p := fun m => ∀ d, m.armed ≠ some (k, d)) (h.armed j) ?_
    rintro rfl d hmem
    rcases Memory.armed_learn hs hmem with ⟨hmem, -⟩ | ⟨-, -, hrow, hst⟩
    · exact h.armed i d hmem
    · obtain rfl := Option.some.inj (hrow.symm.trans h.row)
      rw [h.active] at hst
      cases hst
  seen := by
    refine memory_answer (p := fun m => ∀ j d, m.active = some (j, d) → j = k) h.seen ?_
    rintro rfl j d hj
    rcases Memory.active_looked hs hj with hj | ⟨rfl, hfound⟩
    · exact h.seen j d hj
    · obtain ⟨hrow, hst⟩ := findActive_some hfound
      have hle := findActive_latest hfound h.row h.active
      exact w.state.chains.unique j k d c hrow h.row (le_antisymm (h.latest j d hrow hst) hle)
  vacant := by
    refine memory_answer (p := fun m => m.vacant = false) h.vacant ?_
    rintro rfl
    by_contra hv
    rcases Memory.vacant_learn hs (by simpa using hv) with hv | ⟨-, -, hnone⟩ | ⟨j, d, x, hj, rfl, -⟩
    · rw [h.vacant] at hv
      cases hv
    · exact findActive_none hnone h.row h.active
    · obtain rfl := h.seen j d hj
      exact h.not_written hh hd

/-- Where the epoch that is served when the round begins has a seed, the round gets one. -/
lemma awaits_of_served (hmode : P.requireBlockSalt ∧ P.saltProvider = .ethBlock)
    (hfound : σ.findActive = some (k, c)) (hsrc : c.saltSource = .ethBlock) (hu : Unused σ k) : AwaitsBlock P σ := by
  intro c' hc _ hnull
  obtain ⟨hrow, hst⟩ := findActive_some hfound
  have hact (i : ℕ) (o : Oracle) (s : Stmt) (w : FairWorld) (r : fairness.Reply s) (a : State)
      (hw : Held k c.targetBlock w ∧ Serving k c w) (_ : entersWaiting.act i o s w)
      (hd : Keeping P i (memory i w.log) s) (he : exec o s w.state = some (r, a)) :
      Held k c.targetBlock (w.answer i s r a) ∧ Serving k c (w.answer i s r a) :=
    ⟨hw.1.step he fun _ _ => not_createRound hd, hw.2.step hw.1 hmode hd he⟩
  obtain ⟨⟨-, hserving⟩, hret⟩ := invariant_of_discipline (M := system P) (m := ({} : Memory))
    (φ := Keeping P) (Q := fun _ => FairnessService.Hands) (fun n e w a p hr h => keeping_of_environment hr h) hact
    (fun n e w a p hw hr he => by
      obtain rfl := state_of_env hr he
      exact ⟨hw.1.move, hw.2.move⟩)
    (fun i w _ hk => hk.elim)
    ⟨⟨⟨c, hrow, hsrc, rfl⟩, hu, fun _ _ => nofun, fun _ _ => nofun, fun _ => nofun⟩,
      hrow, hst, fun j d hj hst => findActive_latest hfound hj hst, fun _ _ => nofun, fun _ _ => nofun,
      fun _ _ => nofun, rfl⟩ hc
  have hv : (memory 1 c'.world.log).vacant := ((hret 1 _ hnull none rfl).none rfl).1
  rw [hserving.vacant] at hv
  cases hv

end Serving

section Starved

variable {P : Params} {σ σ' : State} {i k : ℕ} {c : Chain}

def NothingQueued (σ : State) : Prop :=
  ∀ k c, σ.chains.row k = some c → c.status ≠ .pending ∧ (c.status = .armed → c.saltSource ≠ .ethBlock)

def Vacant (σ : State) : Prop := ∀ k c, σ.chains.row k = some c → c.status ≠ .active

abbrev Alone {α : Type} (P : Params) (i : ℕ) (p : Program fairness α) (σ : State) (r : Except Err α) (σ' : State) :
    Prop :=
  Evals (system P) (fun o _ => o ≠ .lost ∧ o ≠ .unacked) i p σ r σ'

lemma alone_await {s : Stmt} {a : s.Result} (h : perform s σ = some (.ok a, σ')) :
    Alone P i (Fairness.await s) σ (.ok a) σ' :=
  evals_await (o := .ok) ⟨nofun, nofun⟩ h

lemma findActive_of_vacant (h : Vacant σ) : σ.findActive = none := by
  cases hf : σ.findActive with
  | none => rfl
  | some c =>
      obtain ⟨hrow, hst⟩ := findActive_some hf
      exact absurd hst (h c.1 c.2 hrow)

lemma row_exhausted {j : ℕ} {d : Chain} (h : (σ.updateChain k { status := some .exhausted }).chains.row j = some d) :
    ∃ d', σ.chains.row j = some d' ∧ (d = d' ∧ j ≠ k ∨ d.status = .exhausted) := by
  by_cases hj : j = k
  · subst hj
    cases hrow : σ.chains.row j with
    | none => simp [State.updateChain, hrow] at h
    | some d' =>
        refine ⟨d', rfl, .inr ?_⟩
        obtain rfl : ChainData.apply { status := some .exhausted } d' = d := by
          simpa [State.updateChain, hrow] using h
        rfl
  · exact ⟨d, by simpa [State.updateChain, hj] using h, .inl ⟨rfl, hj⟩⟩

lemma NothingQueued.exhaust (h : NothingQueued σ) :
    NothingQueued (σ.updateChain k { status := some .exhausted }) := by
  intro j d hd
  obtain ⟨d', hd', ⟨rfl, -⟩ | hst⟩ := row_exhausted hd
  · exact h j d hd'
  · simp [hst]

lemma Vacant.exhaust (h : Vacant σ) : Vacant (σ.updateChain k { status := some .exhausted }) := by
  intro j d hd
  obtain ⟨d', hd', ⟨rfl, -⟩ | hst⟩ := row_exhausted hd
  · exact h j d hd'
  · simp [hst]

lemma vacant_of_exhausted (hone : OneActiveEpoch.AtMostOneActive σ) (hc : σ.chains.row k = some c)
    (hst : c.status = .active) : Vacant (σ.updateChain k { status := some .exhausted }) := by
  intro j d hd hact
  obtain ⟨d', hd', ⟨rfl, hj⟩ | hex⟩ := row_exhausted hd
  · exact hj (hone j k d c hd' hc hact hst)
  · rw [hex] at hact
    cases hact

lemma perform_update {d : ChainData} (hc : σ.chains.row k = some c) :
    perform (.updateChain k d) σ = some (.ok (k, d.apply c), σ.updateChain k d) := by
  simp only [perform, hc]

lemma alone_createEpoch (hstrict : P.requireBlockSalt) (hprov : P.saltProvider = .ethBlock) :
    Alone P i (FairnessService.createEpoch P true) σ (.ok none) σ := by
  have hcommit : Alone P i (FairnessService.commit P) σ (.ok ⟨.ethBlock, none, some (0 + P.lead)⟩) σ := by
    unfold FairnessService.commit
    rw [hprov]
    exact evals_bind (evals_await (o := .head 0) ⟨nofun, nofun⟩ rfl) (.ret _ _)
  refine evals_bind (alone_await rfl) (evals_bind (evals_attempt hcommit) ?_)
  simp only [Bool.true_and, Option.isNone_none, if_true, hstrict]
  exact .ret _ _

lemma alone_armOrCreate (hstrict : P.requireBlockSalt) (hprov : P.saltProvider = .ethBlock)
    (hq : NothingQueued σ) : Alone P i (FairnessService.armOrCreate P) σ (.ok none) σ := by
  have hnone : σ.findFirst .pending = none := by
    cases hf : σ.findFirst .pending with
    | none => rfl
    | some c => exact absurd (findFirst_some hf).2 (hq c.1 c.2 (findFirst_some hf).1).1
  exact evals_bind (alone_await (congrArg (fun x => some (Except.ok x, σ)) hnone)) (alone_createEpoch hstrict hprov)

lemma alone_promoteArmed (hstrict : P.requireBlockSalt) (hprov : P.saltProvider = .ethBlock) (hq : NothingQueued σ)
    (hv : Vacant σ) :
    ∃ σ', Alone P i (FairnessService.promoteArmed P) σ (.ok none) σ' ∧ NothingQueued σ' ∧ Vacant σ' := by
  cases hf : σ.findFirst .armed with
  | none =>
      exact ⟨σ, evals_bind (alone_await (congrArg (fun x => some (Except.ok x, σ)) hf))
        (alone_armOrCreate hstrict hprov hq), hq, hv⟩
  | some a =>
      obtain ⟨hrow, hst⟩ := findFirst_some hf
      have hrefuses : FairnessService.refuses P a.2 := by
        simp [FairnessService.refuses, hstrict, (hq a.1 a.2 hrow).2 hst]
      refine ⟨σ.updateChain a.1 { status := some .exhausted }, ?_, hq.exhaust, hv.exhaust⟩
      refine evals_bind (alone_await (congrArg (fun x => some (Except.ok x, σ)) hf)) ?_
      dsimp only
      rw [if_pos hrefuses]
      refine evals_bind (evals_bind (alone_await (perform_update hrow)) (.ret _ _)) ?_
      exact alone_armOrCreate hstrict hprov hq.exhaust

lemma alone_allocateSeed (hstrict : P.requireBlockSalt) (hprov : P.saltProvider = .ethBlock) (hq : NothingQueued σ)
    (hone : OneActiveEpoch.AtMostOneActive σ)
    (hspent : ∀ k c, σ.findActive = some (k, c) → c.saltSource = .ethBlock → ¬ Unused σ k) :
    ∃ σ', Alone P i (FairnessService.allocateSeed P) σ (.ok none) σ' ∧ NothingQueued σ' ∧ Vacant σ' := by
  cases hf : σ.findActive with
  | none =>
      have hv : Vacant σ := fun k c hc => findActive_none hf hc
      obtain ⟨σ', hσ, hq', hv'⟩ := alone_promoteArmed (i := i) hstrict hprov hq hv
      have hensure : Alone P i (FairnessService.ensureActiveChain P) σ (.ok none) σ' :=
        evals_bind (alone_await (congrArg (fun x => some (Except.ok x, σ)) hf)) hσ
      exact ⟨σ', evals_bind hensure (.ret _ _), hq', hv'⟩
  | some a =>
      obtain ⟨k, c⟩ := a
      obtain ⟨hrow, hst⟩ := findActive_some hf
      have hv := vacant_of_exhausted hone hrow hst
      obtain ⟨σ', hσ, hq', hv'⟩ := alone_promoteArmed (i := i) hstrict hprov hq.exhaust hv
      have hlook : Alone P i (Fairness.await .findActive) σ (.ok (some (k, c))) σ :=
        alone_await (congrArg (fun x => some (Except.ok x, σ)) hf)
      by_cases hsrc : c.saltSource = .ethBlock
      · have hserves : ¬ FairnessService.refuses P c := by simp [FairnessService.refuses, hsrc]
        have hnone : σ.nextUnusedSeed k = none := by
          cases hn : σ.nextUnusedSeed k with
          | none => rfl
          | some b =>
              obtain ⟨hk, hone, hfree, ⟨x, hx, -⟩, -⟩ := nextUnusedSeed_some hn
              have hid : b.seedId = (k, b.seedId.2) := Prod.ext hk rfl
              rw [hid] at hfree hx
              exact absurd ⟨b.seedId.2, x, hone, hx, hfree⟩ (hspent k c hf hsrc)
        have hserve : Alone P i (FairnessService.ensureActiveChain P) σ (.ok (some (k, c))) σ := by
          refine evals_bind hlook ?_
          dsimp only
          rw [if_neg hserves]
          exact .ret _ _
        refine ⟨σ', evals_bind hserve (evals_bind (alone_await (congrArg (fun x => some (Except.ok x, σ)) hnone)) ?_),
          hq', hv'⟩
        have hensure : Alone P i (FairnessService.ensureActiveChain P)
            (σ.updateChain k { status := some .exhausted }) (.ok none) σ' :=
          evals_bind (alone_await (congrArg (fun x => some (Except.ok x, _)) (findActive_of_vacant hv))) hσ
        exact evals_bind (alone_await (perform_update hrow)) (evals_bind hensure (.ret _ _))
      · have hrefuses : FairnessService.refuses P c := by simp [FairnessService.refuses, hstrict, hsrc]
        have hensure : Alone P i (FairnessService.ensureActiveChain P) σ (.ok none) σ' := by
          refine evals_bind hlook ?_
          dsimp only
          rw [if_pos hrefuses]
          exact evals_bind (evals_bind (alone_await (perform_update hrow)) (.ret _ _)) hσ
        exact ⟨σ', evals_bind hensure (.ret _ _), hq', hv'⟩

lemma alone_maintain (node : ℕ) (hq : NothingQueued σ) (hv : Vacant σ) :
    ∃ σ', Alone P i (FairnessService.maintain P node) σ (.ok ()) σ' ∧ σ'.chains = σ.chains := by
  cases hm : σ.maintaining node with
  | true =>
      refine ⟨σ.setMaintaining node true, ?_, rfl⟩
      refine evals_bind (alone_await (a := false) ?_) (.ret _ _)
      simp [perform, hm]
  | false =>
      have hpendings : (σ.setMaintaining node true).byEpoch (·.status = .pending) = [] := by
        refine List.eq_nil_iff_forall_not_mem.2 fun c hc => ?_
        obtain ⟨hrow, hst⟩ := mem_byEpoch.1 hc
        exact (hq c.1 c.2 hrow).1 (by simpa using hst)
      refine ⟨(σ.setMaintaining node true).setMaintaining node false, ?_, rfl⟩
      have hbegin : Alone P i (Fairness.await (.beginMaintain node)) σ (.ok true) (σ.setMaintaining node true) :=
        alone_await (by simp [perform, hm])
      refine evals_bind hbegin ?_
      refine evals_bind (evals_catching (x := ()) (a := σ.setMaintaining node true) ?_) (alone_await rfl)
      refine evals_bind (alone_await (congrArg (fun x => some (Except.ok x, _)) hpendings)) ?_
      refine evals_bind (.ret _ _) ?_
      exact evals_bind (alone_await (congrArg (fun x => some (Except.ok x, _)) (findActive_of_vacant hv))) (.ret _ _)

end Starved

section Stall

variable {P : Params} {σ : State}

lemma alone_tryResolve {i : ℕ} {c : Chain} {t : ℕ} (salt : String) (hprov : P.saltProvider = .ethBlock)
    (ht : c.targetBlock = some t) (ht0 : t ≠ 0) :
    ∃ x, Alone P i (FairnessService.tryResolve P c) σ (.ok (some x)) σ := by
  unfold FairnessService.tryResolve FairnessService.resolve EthBlockSaltProvider.resolve
  rw [hprov, ht]
  cases hs : c.salt with
  | some x => exact ⟨x, evals_catching (.ret _ _)⟩
  | none =>
      dsimp only
      rw [if_neg ht0]
      exact ⟨salt, evals_catching (evals_await (o := .hash (some salt)) ⟨nofun, nofun⟩ rfl)⟩

lemma awaited_serves {i k : ℕ} {c : Chain} (salt : String) (hprov : P.saltProvider = .ethBlock)
    (hactive : σ.findActive = none) (harmed : σ.findFirst .armed = none)
    (hpending : σ.findFirst .pending = some (k, c)) (h : Awaited σ k) :
    ∃ a σ', Alone P i (FairnessService.allocateSeed P) σ (.ok (some a)) σ' ∧ a.seedId.1 = k := by
  obtain ⟨c', hc, -, -, ⟨t, ht, ht0⟩, hu⟩ := h
  obtain rfl := Option.some.inj ((findFirst_some hpending).1.symm.trans hc)
  obtain ⟨x, hresolve⟩ := alone_tryResolve (σ := σ) (i := i) salt hprov ht ht0
  have hrow {d : ChainData} {σ : State} {c : Chain} (hc : σ.chains.row k = some c) :
      (σ.updateChain k d).chains.row k = some (d.apply c) := by
    simp [State.updateChain, hc]
  have hseed {d : ChainData} {σ : State} {c : Chain} (hc : σ.chains.row k = some c) (hu : Unused σ k) :
      Unused (σ.updateChain k d) k :=
    Unused.step (s := .updateChain k d) (o := .ok) hu (perform_update hc) fun _ _ h => by cases h
  have hserve : Alone P i (FairnessService.ensureActiveChain P) σ _ _ :=
    evals_bind (alone_await (congrArg (fun x => some (Except.ok x, _)) hactive))
      (evals_bind (alone_await (congrArg (fun x => some (Except.ok x, _)) harmed))
        (evals_bind (alone_await (congrArg (fun x => some (Except.ok x, _)) hpending))
          (evals_bind hresolve (evals_bind (alone_await (perform_update (d := { salt := some x }) hc))
            (evals_bind (alone_await (perform_update (d := { status := some .active }) (hrow hc))) (.ret _ _))))))
  obtain ⟨n, y, hn, hy, hused⟩ := hseed (d := { status := some .active }) (hrow hc)
    (hseed (d := { salt := some x }) hc hu)
  cases hnext : State.nextUnusedSeed _ k with
  | none =>
      rw [nextUnusedSeed_none hnext hn hy] at hused
      cases hused
  | some a =>
      have hdraw := alone_await (P := P) (i := i) (s := .nextUnusedSeed k)
        (congrArg (fun x => some (Except.ok x, _)) hnext)
      exact ⟨a, _, evals_bind hserve (evals_bind hdraw (.ret _ _)), (nextUnusedSeed_some hnext).1⟩

lemma both_begin : ∃ c : FairConfig, entersWaiting.Reaches (system P) (Config.initial σ) c ∧
    c.threads = [.live ((Call.maintain 0).prog P), .live (Call.allocateSeed.prog P)] ∧ c.world.state = σ := by
  have hobeys : entersWaiting.Obeys (system P) (Config.initial σ)
      [.env (.call (.maintain 0)), .env (.call .allocateSeed)] := by
    refine ⟨rfl, fun c hc => ?_⟩
    obtain rfl := Option.some.inj hc
    exact ⟨rfl, fun _ _ => trivial⟩
  exact ⟨_, Rule.reaches_of_run hobeys rfl, rfl, rfl⟩

/-- A round that gets no seed waits for a block, where an epoch is served or waits when the round begins; and
only there, in a store whose epochs in the queue can be served. -/
theorem stall_awaits_block (hboots : P.boots) (hstrict : P.requireBlockSalt) :
    (Supplied σ → AwaitsBlock P σ) ∧ (Orderly σ → AwaitsBlock P σ → Supplied σ) := by
  have hprov : P.saltProvider = .ethBlock := by
    simp only [Params.boots, hstrict, Bool.not_true, Bool.false_or, Bool.and_eq_true, decide_eq_true_eq] at hboots
    exact hboots.1.1.1.1
  refine ⟨?_, fun ho hwait => ?_⟩
  · rintro (⟨k, hk⟩ | ⟨k, c, hfound, hsrc, hu⟩)
    · exact awaits_of_awaited hk
    · exact awaits_of_served ⟨hstrict, hprov⟩ hfound hsrc hu
  · by_contra hno
    have hq : NothingQueued σ := by
      refine fun k c hc => ⟨fun hst => ?_, fun hst hsrc => ?_⟩
      · have hsrc := ho.pending k c hc hst
        obtain ⟨ht, hu⟩ := ho.queued k c hc (.inl hst) hsrc
        exact hno (.inl ⟨k, c, hc, .inl hst, hsrc, ht, hu⟩)
      · obtain ⟨ht, hu⟩ := ho.queued k c hc (.inr hst) hsrc
        exact hno (.inl ⟨k, c, hc, .inr hst, hsrc, ht, hu⟩)
    obtain ⟨σ₁, hlookup, hq₁, hv₁⟩ := alone_allocateSeed (i := 1) hstrict hprov hq ho.active
      fun k c hf hsrc hu => hno (.inr ⟨k, c, hf, hsrc, hu⟩)
    obtain ⟨σ₂, hupkeep, hchains⟩ := alone_maintain (P := P) (i := 0) 0 hq₁ hv₁
    -- the lookup runs to its end before the upkeep begins
    obtain ⟨c₀, hreach₀, hthreads₀, hstate₀⟩ := both_begin (P := P) (σ := σ)
    obtain ⟨c₁, hreach₁, hthreads₁, hstate₁⟩ := Evals.reaches (R := entersWaiting) (c := c₀) (evals_map hlookup)
      (fun _ _ _ h => h) (by rw [hthreads₀]; rfl) hstate₀
    obtain ⟨c₂, hreach₂, hthreads₂, hstate₂⟩ := Evals.reaches (R := entersWaiting) (c := c₁) (evals_map hupkeep)
      (fun _ _ _ h => h) (by rw [hthreads₁, hthreads₀]; rfl) hstate₁
    obtain ⟨k, c, hc, hst, hsrc, -⟩ := hwait c₂ ((hreach₀.trans hreach₁).trans hreach₂)
      (by rw [hthreads₂, hthreads₁, hthreads₀]; rfl) (by rw [hthreads₂, hthreads₁, hthreads₀]; rfl)
    rw [hstate₂, hchains] at hc
    rcases hst with hp | ha
    · exact (hq₁ k c hc).1 hp
    · exact (hq₁ k c hc).2 ha hsrc

end Stall

section Runs

open Scenario

/-- One epoch, committed to block 128, whose seed no round has used. -/
def committed : State :=
  ((State.empty.createChain ⟨0, "commit", 2, .ethBlock, some 128, none, .pending⟩).2.createSeeds 0
    ["commit", "seed"]).2

theorem committed_awaits : Supplied committed ∧ AwaitsBlock (params true .ethBlock) committed := by
  have h : Supplied committed :=
    .inl ⟨0, _, rfl, .inl rfl, rfl, ⟨128, rfl, by decide⟩, 1, ⟨"seed", false⟩, le_rfl, by decide, rfl⟩
  exact ⟨h, (stall_awaits_block rfl rfl).1 h⟩

/-- An empty store has no active epoch, so the upkeep commits to nothing, and the lookup may not. -/
theorem empty_store_stalls : (params true .ethBlock).boots ∧ ¬ AwaitsBlock (params true .ethBlock) .empty := by
  refine ⟨rfl, fun h => ?_⟩
  have hrun : (system (params true .ethBlock)).run (Config.initial .empty)
      ([.env (.call (.maintain 0)), .env (.call .allocateSeed)] ++ acts 1 4 ++ [.act 1 (.head 0)] ++ acts 0 4) =
        some _ := rfl
  obtain ⟨k, c, hc, -⟩ := h _ (Rule.reaches_of_run (R := entersWaiting) (by decide) hrun) rfl rfl
  cases hc

end Runs

end VaultRun.Safety.StrictStall
