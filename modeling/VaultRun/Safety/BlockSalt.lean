import VaultRun.Fairness.Memory

/-!
In strict mode a seed is served from an epoch only whose salt is the hash of the block that the epoch was
committed to, and that was looked up after the epoch had been published, whatever the mode was before.
-/

namespace VaultRun.Safety.BlockSalt

open VaultRun.Concurrency VaultRun.Fairness

section History

/-- The head of the chain of blocks is at least 128 blocks short of `t`. -/
def HeadShortOf (t : ℕ) (x : FairEntry) : Prop :=
  ∃ i n b a, x = .answered i .latestBlockNumber (.ok n) b a ∧ n + Params.minLeadBlocks ≤ t

def Commits (k t : ℕ) (x : FairEntry) : Prop :=
  ∃ i row r b a, x = .answered i (.createChain row) r b a ∧ b.chains.row k = none ∧ a.chains.row k = some row ∧
    row.saltSource = .ethBlock ∧ row.salt = none ∧ row.targetBlock = some t

def ResolvesTo (t : ℕ) (salt : String) (x : FairEntry) : Prop :=
  ∃ i b a, x = .answered i (.finalizedBlockHash t) (.ok (some salt)) b a

/-- Epoch `k` has been created on block `t`, which was a block of the future. -/
def Committed (k t : ℕ) (history : List FairEntry) : Prop :=
  ∃ later x earlier, history = later ++ x :: earlier ∧ Commits k t x ∧ ∃ z ∈ earlier, HeadShortOf t z

/-- After it had been created on block `t`, that block was found to have the hash `salt`. -/
def Resolved (k t : ℕ) (salt : String) (history : List FairEntry) : Prop :=
  ∃ later x earlier, history = later ++ x :: earlier ∧ Commits k t x ∧ (∃ z ∈ earlier, HeadShortOf t z) ∧
    ∃ y ∈ later, ResolvesTo t salt y

variable {k t : ℕ} {salt : String} {history : List FairEntry} {x : FairEntry}

lemma Committed.cons (h : Committed k t history) : Committed k t (x :: history) := by
  obtain ⟨later, y, earlier, rfl, hy⟩ := h
  exact ⟨x :: later, y, earlier, rfl, hy⟩

lemma Resolved.cons (h : Resolved k t salt history) : Resolved k t salt (x :: history) := by
  obtain ⟨later, y, earlier, rfl, hy, hz, u, hu, hr⟩ := h
  exact ⟨x :: later, y, earlier, rfl, hy, hz, u, List.mem_cons_of_mem _ hu, hr⟩

lemma Committed.resolved (h : Committed k t history) (hx : ResolvesTo t salt x) :
    Resolved k t salt (x :: history) := by
  obtain ⟨later, y, earlier, rfl, hy, hz⟩ := h
  exact ⟨x :: later, y, earlier, rfl, hy, hz, x, List.mem_cons_self, hx⟩

end History

/-- The rows agree with what has happened to them. -/
structure Sourced (σ : State) (history : List FairEntry) : Prop where
  pending : ∀ k c, σ.chains.row k = some c → c.status = .pending → c.saltSource = .ethBlock
  salted : ∀ k c, σ.chains.row k = some c → c.status = .armed ∨ c.status = .active → c.salt.isSome
  block : ∀ k c, σ.chains.row k = some c → c.saltSource = .ethBlock → ∃ t, c.targetBlock = some t ∧
    Committed k t history ∧ ∀ salt, c.salt = some salt → Resolved k t salt history

def strict (P : Params) : Prop := P.requireBlockSalt ∧ P.saltProvider = .ethBlock

/-- Epoch `k` has a salt, and in strict mode the hash of a block. -/
def Servable (P : Params) (σ : State) (k : ℕ) : Prop :=
  ∃ c, σ.chains.row k = some c ∧ c.salt.isSome ∧ (strict P → c.saltSource = .ethBlock)

structure Briefed (P : Params) (σ : State) (history : List FairEntry) (m : Memory) : Prop where
  queued : ∀ k c, m.active = some (k, c) ∨ m.armed = some (k, c) → ∃ c', σ.chains.row k = some c' ∧
    c'.salt.isSome ∧ c'.saltSource = c.saltSource
  pending : ∀ k c, (k, c) ∈ m.pendings → ∃ c' t, σ.chains.row k = some c' ∧ c'.saltSource = .ethBlock ∧
    c'.targetBlock = c.targetBlock ∧ c.targetBlock = some t ∧ Committed k t history ∧
    (∀ salt, c.salt = some salt → Resolved k t salt history) ∧
    ∀ salt, (t, salt) ∈ m.hashes → Resolved k t salt history
  salted : ∀ k, m.salted = some k → ∃ c, σ.chains.row k = some c ∧ c.salt.isSome
  promoted : ∀ k, m.promoted = some k → Servable P σ k
  head : ∀ n, m.head = some n → ∃ z ∈ history, ∃ i b a, z = .answered i .latestBlockNumber (.ok n) b a

variable {P : Params} {σ σ' : State} {m : Memory} {o : Oracle} {s : Stmt} {r : fairness.Reply s} {w : FairWorld}
  {i k : ℕ} {history : List FairEntry} {c : Chain}

section Briefed

lemma Servable.step (h : Servable P σ k) (hs : exec o s σ = some (r, σ')) : Servable P σ' k := by
  obtain ⟨c, hc, hsalt, hsource⟩ := h
  obtain ⟨c', hc', hsource', -, hsalt'⟩ := chain_of_exec hs hc
  exact ⟨c', hc', hsalt' hsalt, fun hP => hsource'.trans (hsource hP)⟩

lemma Briefed.step {x : FairEntry} (h : Briefed P σ history m) (hs : exec o s σ = some (r, σ')) :
    Briefed P σ' (x :: history) m where
  queued := by
    intro k c hk
    obtain ⟨c₁, hc₁, hsalt, hsource⟩ := h.queued k c hk
    obtain ⟨c₂, hc₂, hsource', -, hsalt'⟩ := chain_of_exec hs hc₁
    exact ⟨c₂, hc₂, hsalt' hsalt, hsource'.trans hsource⟩
  pending := by
    intro k c hk
    obtain ⟨c₁, t, hc₁, hsource, htarget, ht, hcom, hsalt, hhash⟩ := h.pending k c hk
    obtain ⟨c₂, hc₂, hsource', htarget', -⟩ := chain_of_exec hs hc₁
    exact ⟨c₂, t, hc₂, hsource'.trans hsource, htarget'.trans htarget, ht, hcom.cons,
      fun y hy => (hsalt y hy).cons, fun y hy => (hhash y hy).cons⟩
  salted := by
    intro k hk
    obtain ⟨c, hc, hsalt⟩ := h.salted k hk
    obtain ⟨c', hc', -, -, hsalt'⟩ := chain_of_exec hs hc
    exact ⟨c', hc', hsalt' hsalt⟩
  promoted := fun k hk => (h.promoted k hk).step hs
  head := by
    intro n hn
    obtain ⟨z, hz, hzn⟩ := h.head n hn
    exact ⟨z, List.mem_cons_of_mem _ hz, hzn⟩

lemma Briefed.servable {d : ChainData} (h : Briefed P σ history m) (hd : m.Writes P k d)
    (hst : d.status = some .active) : Servable P σ k := by
  cases hd with
  | promoteArmed _ _ ha hc =>
      obtain ⟨c', hc', hsalt, hsource⟩ := h.queued k _ (.inr ha)
      refine ⟨c', hc', hsalt, fun hP => ?_⟩
      rw [hsource]
      simpa [FairnessService.refuses, hP.1] using hc
  | promoteSalted _ _ hp hsalted =>
      obtain ⟨c', hc', hsalt⟩ := h.salted k hsalted
      obtain ⟨c'', t, hc'', hsource, -⟩ := h.pending k _ hp
      obtain rfl := Option.some.inj (hc'.symm.trans hc'')
      exact ⟨c', hc', hsalt, fun _ => hsource⟩
  | retireActive | retireArmed | exhaust | arm => cases hst
  | salt => cases hst

lemma Briefed.learn (h : Briefed P σ history m) (hσ : Sourced σ history) (hd : m.Due P s)
    (hs : exec o s σ = some (r, σ')) :
    Briefed P σ' (.answered i s r σ σ' :: history) (m.learn s r) := by
  have hstep : Briefed P σ' (.answered i s r σ σ' :: history) m := h.step hs
  refine ⟨fun k c hk => ?_, fun k c hk => ?_, fun k hk => ?_, fun k hk => ?_, fun n hn => ?_⟩
  · rcases hk with hk | hk
    · rcases Memory.active_learn hs hk with hk | ⟨rfl, hc, hst⟩
      · exact hstep.queued k c (.inl hk)
      · exact ⟨c, hc, hσ.salted k c hc (.inr hst), rfl⟩
    · rcases Memory.armed_learn hs hk with ⟨hk, -⟩ | ⟨-, rfl, hc, hst⟩
      · exact hstep.queued k c (.inr hk)
      · exact ⟨c, hc, hσ.salted k c hc (.inl hst), rfl⟩
  · rcases Memory.pendings_learn hs hk with ⟨hk, -⟩ | ⟨-, hnil, rfl, hc, hst⟩
    · obtain ⟨c', t, hc', hsource, htarget, ht, hcom, hsalt, hhash⟩ := hstep.pending k c hk
      refine ⟨c', t, hc', hsource, htarget, ht, hcom, hsalt, fun y hy => ?_⟩
      rcases Memory.hashes_learn hy with hy | heq
      · exact hhash y hy
      · cases heq
        obtain ⟨-, t', -, -, -, ht', hcom', -⟩ := h.pending k c hk
        obtain rfl : t' = t := Option.some.inj (ht'.symm.trans ht)
        exact hcom'.resolved ⟨i, σ, σ', rfl⟩
    · have hsource := hσ.pending k c hc hst
      obtain ⟨t, ht, hcom, hsalt⟩ := hσ.block k c hc hsource
      refine ⟨c, t, hc, hsource, rfl, ht, hcom.cons, fun y hy => (hsalt y hy).cons, fun y hy => ?_⟩
      rw [hnil] at hy
      cases hy
  · rcases Memory.salted_learn hs hk with hk | ⟨d, x, old, -, hd, hrow⟩
    · exact hstep.salted k hk
    · exact ⟨_, hrow, by simp [ChainData.apply, hd]⟩
  · rcases Memory.promoted_learn hs hk with hk | ⟨d, rfl, hst⟩
    · exact hstep.promoted k hk
    · exact (h.servable hd hst).step hs
  · rcases Memory.head_learn hn with hn | heq
    · exact hstep.head n hn
    · cases heq
      exact ⟨_, List.mem_cons_self, i, σ, σ', rfl⟩

end Briefed

section Sourced

lemma Briefed.resolves {t : ℕ} {y : String} (h : Briefed P σ history m) (hres : m.Resolves k y)
    (hc : σ.chains.row k = some c) (ht : c.targetBlock = some t) : Resolved k t y history := by
  obtain ⟨c₀, hmem, hsalt⟩ := hres
  obtain ⟨c₁, t', hc₁, -, htarget, ht', -, hsalted, hhash⟩ := h.pending k c₀ hmem
  obtain rfl := Option.some.inj (hc₁.symm.trans hc)
  obtain rfl : t = t' := Option.some.inj (ht.symm.trans (htarget.trans ht'))
  rcases hsalt with hy | ⟨-, t'', ht'', hy⟩
  · exact hsalted y hy
  · obtain rfl : t = t'' := Option.some.inj (ht'.symm.trans ht'')
    exact hhash y hy

lemma Sourced.step (hσ : Sourced σ history) (h : Briefed P σ history m) (hd : m.Due P s)
    (hs : exec o s σ = some (r, σ')) : Sourced σ' (.answered i s r σ σ' :: history) := by
  refine ⟨fun k c hc hst => ?_, fun k c hc hst => ?_, fun k c hc hsource => ?_⟩
  · cases exec_chainChange hs k with
    | kept hk => exact hσ.pending k c (hk ▸ hc) hst
    | created hn hk =>
        obtain rfl := Option.some.inj (hk.symm.trans hc)
        cases hd.1 with
        | random _ _ _ hstatus => rcases hstatus with h | ⟨h, -⟩ <;> rw [h] at hst <;> cases hst
        | ethBlock hsource => exact hsource
    | @updated d old hold hk =>
        obtain rfl := Option.some.inj (hk.symm.trans hc)
        refine hσ.pending k old hold ?_
        cases hd with
        | salt => exact hst
        | _ => cases hst
  · cases exec_chainChange hs k with
    | kept hk => exact hσ.salted k c (hk ▸ hc) hst
    | created hn hk =>
        obtain rfl := Option.some.inj (hk.symm.trans hc)
        cases hd.1 with
        | random _ _ hsalt => exact hsalt
        | ethBlock _ _ _ hstatus => rw [hstatus] at hst; simp at hst
    | @updated d old hold hk =>
        obtain rfl := Option.some.inj (hk.symm.trans hc)
        have hserve (hact : d.status = some .active) (hsame : d.salt = none) : (d.apply old).salt.isSome := by
          obtain ⟨c', hc', hsalt, -⟩ := h.servable hd hact
          obtain rfl := Option.some.inj (hold.symm.trans hc')
          simpa [ChainData.apply, hsame] using hsalt
        cases hd with
        | promoteArmed | promoteSalted => exact hserve rfl rfl
        | salt | arm => rfl
        | retireActive | retireArmed | exhaust => simp [ChainData.apply] at hst
  · cases exec_chainChange hs k with
    | kept hk =>
        obtain ⟨t, ht, hcom, hsalt⟩ := hσ.block k c (hk ▸ hc) hsource
        exact ⟨t, ht, hcom.cons, fun y hy => (hsalt y hy).cons⟩
    | created hn hk =>
        obtain rfl := Option.some.inj (hk.symm.trans hc)
        cases hd.1 with
        | random hrandom => rw [hrandom] at hsource; cases hsource
        | @ethBlock n _ htarget hnone _ hhead =>
            obtain ⟨z, hz, j, b, a, rfl⟩ := h.head n hhead
            have hlead : n + Params.minLeadBlocks ≤ n + P.lead := by
              have := P.minLeadBlocks_le_lead
              omega
            refine ⟨_, htarget, ⟨[], _, history, rfl, ?_, _, hz, j, n, b, a, rfl, hlead⟩, fun y hy => ?_⟩
            · exact ⟨i, _, r, σ, σ', rfl, by rw [hn, Data.Records.row_next], hk, hsource, hnone, htarget⟩
            · rw [hnone] at hy
              cases hy
    | @updated d old hold hk =>
        obtain rfl := Option.some.inj (hk.symm.trans hc)
        obtain ⟨t, ht, hcom, hsalt⟩ := hσ.block k old hold hsource
        refine ⟨t, ht, hcom.cons, fun y hy => ?_⟩
        cases hd with
        | salt hres | arm hres =>
            obtain rfl := Option.some.inj hy
            exact (h.resolves hres hold ht).cons
        | _ => exact (hsalt y (by simpa [ChainData.apply] using hy)).cons

end Sourced

section Draws

def OnBlock (σ : State) (history : List FairEntry) (a : AllocatedSeed) : Prop :=
  ∃ c t salt, σ.chains.row a.seedId.1 = some c ∧ c.saltSource = .ethBlock ∧ c.targetBlock = some t ∧
    a.salt = some salt ∧ Resolved a.seedId.1 t salt history ∧
    ∀ y, c.salt = some y → Resolved a.seedId.1 t y history

/-- The entry hands out the seed. -/
def Draws (a : AllocatedSeed) (x : FairEntry) : Prop :=
  ∃ i k b σ, x = .answered i (.nextUnusedSeed k) (.ok (some a)) b σ

variable {a : AllocatedSeed}

lemma OnBlock.step {x : FairEntry} (h : OnBlock σ history a) (hσ : Sourced σ' (x :: history))
    (hs : exec o s σ = some (r, σ')) : OnBlock σ' (x :: history) a := by
  obtain ⟨c, t, salt, hc, hsource, ht, hsalt, hres, -⟩ := h
  obtain ⟨c', hc', hsource', ht', -⟩ := chain_of_exec hs hc
  obtain ⟨t', ht'', -, hall⟩ := hσ.block _ c' hc' (hsource'.trans hsource)
  obtain rfl : t = t' := Option.some.inj (ht.symm.trans (ht'.symm.trans ht''))
  exact ⟨c', t, salt, hc', hsource'.trans hsource, ht'', hsalt, hres.cons, hall⟩

lemma Briefed.served (h : Briefed P σ history m) (hP : strict P) (hd : m.Served P k) :
    ∃ c, σ.chains.row k = some c ∧ c.salt.isSome ∧ c.saltSource = .ethBlock := by
  cases hd with
  | active ha hc =>
      obtain ⟨c', hc', hsalt, hsource⟩ := h.queued k _ (.inl ha)
      refine ⟨c', hc', hsalt, ?_⟩
      rw [hsource]
      simpa [FairnessService.refuses, hP.1] using hc
  | promoted hp =>
      obtain ⟨c, hc, hsalt, hsource⟩ := h.promoted k hp
      exact ⟨c, hc, hsalt, hsource hP⟩
  | created _ _ hmode => exact absurd hP hmode

lemma onBlock_of_draw (h : Briefed P σ history m) (hσ : Sourced σ history) (hP : strict P)
    (hd : m.Due P (.nextUnusedSeed k))
    (hs : exec o (.nextUnusedSeed k) σ = some (.ok (some a), σ')) : OnBlock σ' history a := by
  obtain ⟨rfl, hr⟩ := exec_nextUnusedSeed hs
  obtain ⟨rfl, -, -, -, hsalt, -⟩ := nextUnusedSeed_some hr
  obtain ⟨c, hc, hsome, hsource⟩ := h.served hP hd
  obtain ⟨salt, hcs⟩ := Option.isSome_iff_exists.1 hsome
  obtain ⟨t, ht, -, hall⟩ := hσ.block _ c hc hsource
  exact ⟨c, t, salt, hc, hsource, ht, by rw [hsalt, hc, Option.bind_some, hcs], hall salt hcs, hall⟩

end Draws

section Runs

/-- `before` is the history that the run started with. -/
def SaltInv (P : Params) (before : List FairEntry) (w : FairWorld) : Prop :=
  Sourced w.state (w.log ++ before) ∧ (∀ i, Briefed P w.state (w.log ++ before) (memory i w.log)) ∧
    (strict P → ∀ a, ∀ x ∈ w.log, Draws a x → OnBlock w.state (w.log ++ before) a)

variable {before : List FairEntry}

lemma SaltInv.answer (h : SaltInv P before w) (hd : (memory i w.log).Due P s)
    (hs : exec o s w.state = some (r, σ')) : SaltInv P before (w.answer i s r σ') := by
  obtain ⟨hσ, hm, hdraw⟩ := h
  have hσ' : Sourced σ' (.answered i s r w.state σ' :: (w.log ++ before)) := hσ.step (hm i) hd hs
  refine ⟨hσ', fun j => ?_, fun hP a x hx ha => ?_⟩
  · change Briefed P σ' (.answered i s r w.state σ' :: (w.log ++ before)) (memory j (_ :: w.log))
    by_cases hij : i = j
    · subst hij
      rw [memory, foldBy_self]
      exact (hm i).learn hσ hd hs
    · rw [memory, foldBy_answered hij]
      exact (hm j).step hs
  · rcases List.mem_cons.1 hx with rfl | hx
    · obtain ⟨j, k, b, τ, heq⟩ := ha
      cases heq
      have hon := onBlock_of_draw (hm i) hσ hP hd hs
      obtain ⟨rfl, -⟩ := exec_nextUnusedSeed hs
      exact hon.step hσ' hs
    · exact (hdraw hP a x hx ha).step hσ' hs

lemma SaltInv.keep {x : FairEntry} (h : SaltInv P before w) (hchains : σ.chains = w.state.chains)
    (hmem : ∀ i, memory i (x :: w.log) = memory i w.log) (hx : ∀ a, ¬ Draws a x) :
    SaltInv P before ⟨σ, x :: w.log⟩ := by
  obtain ⟨⟨hp, hs, hb⟩, hm, hdraw⟩ := h
  refine ⟨⟨fun k c hc => hp k c (hchains ▸ hc), fun k c hc => hs k c (hchains ▸ hc), fun k c hc hsource => ?_⟩,
    fun i => ?_, fun hP a y hy ha => ?_⟩
  · obtain ⟨t, ht, hcom, hall⟩ := hb k c (hchains ▸ hc) hsource
    exact ⟨t, ht, hcom.cons, fun y hy => (hall y hy).cons⟩
  · rw [hmem]
    obtain ⟨hq, hpend, hsalted, hpro, hhead⟩ := hm i
    refine ⟨fun k c hk => hchains ▸ hq k c hk, fun k c hk => ?_, fun k hk => hchains ▸ hsalted k hk,
      fun k hk => ?_, fun n hn => ?_⟩
    · obtain ⟨c', t, hc', hsource, htarget, ht, hcom, hsalt, hhash⟩ := hpend k c hk
      exact ⟨c', t, hchains ▸ hc', hsource, htarget, ht, hcom.cons, fun y hy => (hsalt y hy).cons,
        fun y hy => (hhash y hy).cons⟩
    · obtain ⟨c, hc, hsalt⟩ := hpro k hk
      exact ⟨c, hchains ▸ hc, hsalt⟩
    · obtain ⟨z, hz, hzn⟩ := hhead n hn
      exact ⟨z, List.mem_cons_of_mem _ hz, hzn⟩
  · rcases List.mem_cons.1 hy with rfl | hy
    · exact absurd ha (hx a)
    · obtain ⟨c, t, salt, hc, hsource, ht, hsalt, hres, hall⟩ := hdraw hP a y hy ha
      exact ⟨c, t, salt, hchains ▸ hc, hsource, ht, hsalt, hres.cons, fun y hy => (hall y hy).cons⟩

lemma SaltInv.move {n : ℕ} {e : Event} {p : Option (Program fairness Outcome)} (h : SaltInv P before w)
    (he : environment P e w.state = some (σ, p)) : SaltInv P before (w.move n e σ) := by
  refine SaltInv.keep (x := .moved n e w.state σ) h ?_ (fun _ => rfl) ?_
  · cases e <;> obtain ⟨rfl, -⟩ := Prod.mk.inj (Option.some.inj he) <;> rfl
  · rintro a ⟨i, k, b, τ, heq⟩
    cases heq

lemma SaltInv.kill (h : SaltInv P before w) : SaltInv P before (w.kill i w.state) := by
  refine SaltInv.keep (x := .killed i w.state w.state) h rfl (fun _ => rfl) ?_
  rintro a ⟨i, k, b, τ, heq⟩
  cases heq

lemma saltInv_of_run {R : FairRule} {c : FairConfig} (hσ : Sourced σ before)
    (h : R.Reaches (system P) (Config.initial σ) c) :
    SaltInv P before c.world ∧ ∀ i a, c.threads[i]? = some (.live (.ret (.seed a))) →
      FairnessService.Allocates (.ok a) (memory i c.world.log) := by
  have hinit : SaltInv P before ⟨σ, []⟩ := by
    refine ⟨hσ, fun i => ?_, fun _ a x hx => by cases hx⟩
    exact ⟨by simp, by simp, by simp, by simp, by simp⟩
  exact invariant_of_calls (fun _ _ _ _ _ _ hw _ hd hs => SaltInv.answer hw hd hs)
    (fun _ _ _ _ _ hw _ he => hw.move he) (fun _ _ hw _ => hw.kill) hinit h

lemma sourced_of_deployed {ok : Params → Prop} {R : FairRule} (h : Deployed ok R σ history) :
    Sourced σ history := by
  induction h with
  | empty => exact ⟨nofun, nofun, nofun⟩
  | deploy _ _ hc ih => exact (saltInv_of_run ih hc).1.1

lemma draws_of_unused {a : AllocatedSeed} {log : List FairEntry} (h : (memory i log).unused = some (k, some a)) :
    ∃ x ∈ log, Draws a x := by
  induction log with
  | nil => cases h
  | cons x log ih =>
      have hlater (h : (memory i log).unused = some (k, some a)) : ∃ y ∈ x :: log, Draws a y := by
        obtain ⟨y, hy, ha⟩ := ih h
        exact ⟨y, List.mem_cons_of_mem _ hy, ha⟩
      cases x with
      | moved n e b a => exact hlater h
      | killed n b a => exact hlater h
      | answered j s r b b' =>
          by_cases hij : j = i
          · subst hij
            rw [memory, foldBy_self] at h
            rcases Memory.unused_learn h with ⟨h, -⟩ | heq
            · exact hlater h
            · cases heq
              exact ⟨_, List.mem_cons_self, j, k, b, b', rfl⟩
          · rw [memory, foldBy_answered hij] at h
            exact hlater h

/-- Whatever the deployments before and whatever they have left, a seed that a strict deployment hands out is
of an epoch on a block, and the epoch was committed to that block before the block was looked up. -/
theorem seeds_on_committed_blocks {ok : Params → Prop} {R : FairRule} {c : FairConfig} {a : AllocatedSeed}
    (h₀ : Deployed ok R σ before) (hstrict : P.requireBlockSalt) (hboot : P.boots)
    (h : Rule.free.Reaches (system P) (Config.initial σ) c)
    (ha : (∃ i : ℕ, c.threads[i]? = some (.live (.ret (.seed (some a))))) ∨ ∃ x ∈ c.world.log, Draws a x) :
    OnBlock c.world.state (c.world.log ++ before) a := by
  obtain ⟨⟨-, -, hdraw⟩, hret⟩ := saltInv_of_run (sourced_of_deployed h₀) h
  have hP : strict P := ⟨hstrict, by simp only [Params.boots, hstrict] at hboot; simp_all⟩
  obtain ⟨x, hx, hax⟩ : ∃ x ∈ c.world.log, Draws a x := by
    rcases ha with ⟨i, hi⟩ | hx
    · obtain ⟨k, hk⟩ := (hret i _ hi).some a rfl
      exact draws_of_unused hk
    · exact hx
  exact hdraw hP a x hx hax

open Scenario

/-- In play mode an epoch with a random salt is served, and the next one is committed to block 128. -/
def playMode : List (Machine.Label Event Oracle) :=
  .env (.call .ensureChain) :: acts 0 4 ++ [.act 0 (.head 0), .act 0 (.bytes "salt"), .act 0 (.bytes "last")] ++
    acts 0 5 ++ .env (.call (.maintain 0)) :: acts 1 5 ++ [.act 1 (.head 0), .act 1 (.bytes "last")] ++ acts 1 3

def afterPlay : FairConfig :=
  ((system (params false .ethBlock)).run (Config.initial .empty) playMode).getD (Config.initial .empty)

/-- After a change to strict mode the first seed comes from the second epoch. -/
theorem seed_after_mode_change : ∃ (c : FairConfig) (history : List FairEntry) (a : AllocatedSeed),
    a.seedId = (1, 1) ∧ a.salt = some "hash" ∧ OnBlock c.world.state history a := by
  have hplay : (system (params false .ethBlock)).run (Config.initial .empty) playMode = some afterPlay := rfl
  have h₀ : Deployed (fun P => P.requireBlockSalt = false) Rule.free afterPlay.world.state afterPlay.world.log :=
    .deploy .empty rfl (Rule.reaches_of_run Rule.obeys_free hplay)
  have hrun : (system (params true .ethBlock)).run (Config.initial afterPlay.world.state)
      (.env (.call .allocateSeed) :: acts 0 4 ++ [.act 0 (.hash (some "hash"))] ++ acts 0 3) = some _ := rfl
  exact ⟨_, _, _, rfl, rfl, seeds_on_committed_blocks h₀ rfl rfl (Rule.reaches_of_run Rule.obeys_free hrun)
    (.inl ⟨0, rfl⟩)⟩

end Runs

end VaultRun.Safety.BlockSalt
