import VaultRun.Fairness.Memory

/-!
An epoch goes from pending to exhausted without a step back, keeps the salt it once has, and is exhausted when
its seeds are used up, as long as no write comes too late: after another call has taken the epoch further
since the writer has read it, or has put in the seeds that the writer has looked for.
-/

namespace VaultRun.Safety.EpochLifeCycle

open VaultRun.Concurrency VaultRun.Fairness

def rank : ChainStatus → ℕ
  | .pending => 0
  | .armed => 1
  | .active => 2
  | .exhausted => 3

/-- Every seed of the epoch that a round may have has been used. -/
def Spent (σ : State) (k : ℕ) : Prop := ∀ n x, 1 ≤ n → σ.seeds.row (k, n) = some x → σ.used (k, n)

/-- What a step may make of the row `c` of epoch `k`. -/
structure Advance (P : Params) (σ : State) (k : ℕ) (c c' : Chain) : Prop where
  status : rank c.status ≤ rank c'.status
  salt : ∀ x, c.salt = some x → c'.salt = some x
  spent : c.status ≠ .exhausted → c'.status = .exhausted →
    P.requireBlockSalt ∧ c.saltSource ≠ .ethBlock ∨ Spent σ k

/-- No epoch is lost, or new and exhausted, and those that are there advance. -/
def Advances (P : Params) (x : FairEntry) : Prop :=
  ∀ k, (∀ c, x.before.chains.row k = some c →
      ∃ c', x.after.chains.row k = some c' ∧ Advance P x.before k c c') ∧
    (x.before.chains.row k = none → ∀ c', x.after.chains.row k = some c' → c'.status ≠ .exhausted)

section Rule

@[reducible] def looksUpBy (i : ℕ) : FairEntry → Bool
  | .answered j s r _ _ => j = i && Memory.looksUp s r
  | _ => false

@[reducible] def drawsBy (i : ℕ) : FairEntry → Bool
  | .answered j s r _ _ => j = i && Memory.drawsSeed s r
  | _ => false

def Passes (k : ℕ) (st : ChainStatus) (x : FairEntry) : Prop :=
  ∃ c c', x.before.chains.row k = some c ∧ x.after.chains.row k = some c' ∧
    rank c.status ≤ rank st ∧ rank st < rank c'.status

def PutsSeeds (k : ℕ) (x : FairEntry) : Prop :=
  x.before.seeds.row (k, 0) = none ∧ ∃ y, x.after.seeds.row (k, 0) = some y

/-- A write of status `st` to epoch `k` by call `i` is not too late. -/
def InTime (i k : ℕ) (st : ChainStatus) (log : List FairEntry) : Prop :=
  ¬ Since (looksUpBy i) (Passes k st) log ∧
    (st = .exhausted → (memory i log).unused = some (k, none) → ¬ Since (drawsBy i) (PutsSeeds k) log)

@[reducible] def writesStatus : Stmt → Option (ℕ × ChainStatus)
  | .updateChain k d => d.status.map (k, ·)
  | _ => none

@[reducible] def timely (blockHash : ℕ → String) : FairRule where
  act i o s w := Memory.OneHash blockHash o s ∧ ∀ t ∈ writesStatus s, InTime i t.1 t.2 w.log
  kill _ _ := True
  env _ _ _ := True

end Rule

def Within (σ : State) (log : List FairEntry) (i k : ℕ) : Prop :=
  ∃ c, σ.chains.row k = some c ∧
    ∀ st, rank .armed ≤ rank st → ¬ Since (looksUpBy i) (Passes k st) log → rank c.status ≤ rank st

structure Descends (blockHash : ℕ → String) (c c' : Chain) : Prop where
  source : c'.saltSource = c.saltSource
  target : c'.targetBlock = c.targetBlock
  salt : ∀ x, c.salt = some x → c'.salt = some x
  new : c.salt = none → ∀ x, c'.salt = some x → ∃ t, c.targetBlock = some t ∧ x = blockHash t

structure Known (blockHash : ℕ → String) (σ : State) (log : List FairEntry) (i : ℕ) (m : Memory) : Prop where
  row : ∀ k c, m.active = some (k, c) ∨ m.armed = some (k, c) ∨ (k, c) ∈ m.pendings →
    ∃ c', σ.chains.row k = some c' ∧ Descends blockHash c c'
  within : ∀ k c, m.armed = some (k, c) ∨ (k, c) ∈ m.pendings → Within σ log i k
  hash : ∀ t x, (t, x) ∈ m.hashes → x = blockHash t
  unused : ∀ k, m.unused = some (k, none) → ¬ Since (drawsBy i) (PutsSeeds k) log → Spent σ k

def CycleInv (P : Params) (blockHash : ℕ → String) (w : FairWorld) : Prop :=
  (∀ x ∈ w.log, Advances P x) ∧ ∀ i, Known blockHash w.state w.log i (memory i w.log)

variable {P : Params} {blockHash : ℕ → String} {σ σ' : State} {m : Memory} {o : Oracle} {s : Stmt}
  {r : fairness.Reply s} {w : FairWorld} {i j k : ℕ} {log : List FairEntry} {c c' : Chain} {x : FairEntry}

section Rows

lemma descends_refl : Descends blockHash c c :=
  ⟨rfl, rfl, fun _ h => h, fun h x hx => by rw [h] at hx; cases hx⟩

lemma Descends.trans {c'' : Chain} (h : Descends blockHash c c') (h' : Descends blockHash c' c'') :
    Descends blockHash c c'' where
  source := h'.source.trans h.source
  target := h'.target.trans h.target
  salt := fun x hx => h'.salt x (h.salt x hx)
  new := by
    intro hn x hx
    cases hc : c'.salt with
    | none =>
        obtain ⟨t, ht, hxt⟩ := h'.new hc x hx
        exact ⟨t, h.target ▸ ht, hxt⟩
    | some y =>
        obtain rfl : y = x := Option.some.inj ((h'.salt y hc).symm.trans hx)
        exact h.new hn y hc

lemma Known.resolves {y : String} (hm : Known blockHash σ log i m) (hres : m.Resolves k y)
    (hc : σ.chains.row k = some c) :
    (∀ x, c.salt = some x → y = x) ∧ (c.salt = none → ∃ t, c.targetBlock = some t ∧ y = blockHash t) := by
  obtain ⟨c₀, hmem, hsalt⟩ := hres
  obtain ⟨c₁, hc₁, hd⟩ := hm.row k c₀ (.inr (.inr hmem))
  obtain rfl := Option.some.inj (hc₁.symm.trans hc)
  rcases hsalt with hy | ⟨hn, t, ht, hh⟩
  · have := hd.salt y hy
    exact ⟨fun x hx => Option.some.inj (this.symm.trans hx), fun hn => by rw [this] at hn; cases hn⟩
  · refine ⟨fun x hx => ?_, fun _ => ⟨t, hd.target.trans ht, hm.hash t y hh⟩⟩
    obtain ⟨t', ht', rfl⟩ := hd.new hn x hx
    obtain rfl := Option.some.inj (ht.symm.trans ht')
    exact hm.hash t y hh

lemma descends_of_exec (hm : Known blockHash σ log i m) (hd : m.Due P s) (h : exec o s σ = some (r, σ'))
    (hc : σ.chains.row k = some c) : ∃ c', σ'.chains.row k = some c' ∧ Descends blockHash c c' := by
  cases exec_chainChange h k with
  | kept hk => exact ⟨c, hk.trans hc, descends_refl⟩
  | created hn hk =>
      rw [hn, Data.Records.row_next] at hc
      cases hc
  | @updated d old hold hk =>
      obtain rfl := Option.some.inj (hold.symm.trans hc)
      refine ⟨_, hk, rfl, rfl, fun x hx => ?_, fun hn x hx => ?_⟩
      · cases hd with
        | salt hres | arm hres => rw [← (hm.resolves hres hold).1 x hx]; rfl
        | _ => simpa [ChainData.apply] using hx
      · cases hd with
        | salt hres | arm hres =>
            obtain rfl := Option.some.inj hx
            exact (hm.resolves hres hold).2 hn
        | _ =>
            have : old.salt = some x := by simpa [ChainData.apply] using hx
            rw [this] at hn
            cases hn

/-- A write that comes in time takes the epoch further. -/
lemma advance_of_writes {d : ChainData} (hm : Known blockHash σ log i m) (hd : m.Writes P k d)
    (hmem : m = memory i log) (hr : ∀ st, d.status = some st → InTime i k st log)
    (hc : σ.chains.row k = some c) (hdesc : Descends blockHash c (d.apply c)) :
    Advance P σ k c (d.apply c) := by
  have hwithin {c₀ : Chain} (h : m.armed = some (k, c₀) ∨ (k, c₀) ∈ m.pendings) (st : ChainStatus)
      (hst : rank .armed ≤ rank st) (hd : d.status = some st) : rank c.status ≤ rank st := by
    obtain ⟨c₁, hc₁, hle⟩ := hm.within k c₀ h
    obtain rfl := Option.some.inj (hc₁.symm.trans hc)
    exact hle st hst (hr st hd).1
  have hsource {c₀ : Chain} (h : m.active = some (k, c₀) ∨ m.armed = some (k, c₀))
      (hc₀ : FairnessService.refuses P c₀) : P.requireBlockSalt ∧ c.saltSource ≠ .ethBlock := by
    obtain ⟨c₁, hc₁, hd₁⟩ := hm.row k c₀ (by tauto)
    obtain rfl := Option.some.inj (hc₁.symm.trans hc)
    rw [hd₁.source]
    simpa [FairnessService.refuses] using hc₀
  have htop : rank c.status ≤ rank .exhausted := by cases c.status <;> decide
  cases hd with
  | retireActive h hc₀ => exact ⟨htop, hdesc.salt, fun _ _ => .inl (hsource (.inl h) hc₀)⟩
  | retireArmed h hc₀ => exact ⟨htop, hdesc.salt, fun _ _ => .inl (hsource (.inr h) hc₀)⟩
  | exhaust h => exact ⟨htop, hdesc.salt, fun _ _ => .inr (hm.unused k h ((hr _ rfl).2 rfl (hmem ▸ h)))⟩
  | promoteArmed _ _ h _ => exact ⟨hwithin (.inl h) .active (by decide) rfl, hdesc.salt, fun _ h => by cases h⟩
  | promoteSalted _ _ h _ => exact ⟨hwithin (.inr h) .active (by decide) rfl, hdesc.salt, fun _ h => by cases h⟩
  | salt _ => exact ⟨le_rfl, hdesc.salt, fun hne h => absurd h hne⟩
  | arm hres =>
      obtain ⟨c₀, hmem, -⟩ := hres
      exact ⟨hwithin (.inr hmem) .armed le_rfl rfl, hdesc.salt, fun _ h => by cases h⟩

lemma advances_of_exec (hm : Known blockHash σ log i (memory i log)) (hd : (memory i log).Due P s)
    (hr : ∀ k d st, s = .updateChain k d → d.status = some st → InTime i k st log)
    (h : exec o s σ = some (r, σ')) : Advances P (.answered i s r σ σ') := by
  intro k
  cases exec_chainChange h k with
  | kept hk =>
      refine ⟨fun c hc => ⟨c, hk.trans hc, le_rfl, fun _ hx => hx, fun hne he => absurd he hne⟩, ?_⟩
      intro hn c' hc'
      cases (hk.trans hn).symm.trans hc'
  | created hn hk =>
      refine ⟨fun c hc => ?_, fun _ c' hc' => ?_⟩
      · have hnone : σ.chains.row k = none := by rw [hn, Data.Records.row_next]
        cases hnone.symm.trans hc
      · obtain rfl := Option.some.inj (hk.symm.trans hc')
        cases hd.1 with
        | random _ _ _ hstatus => rcases hstatus with hst | ⟨hst, -⟩ <;> simp [hst]
        | ethBlock _ _ _ hstatus => simp [hstatus]
  | @updated d old hold hk =>
      refine ⟨fun c hc => ?_, fun hn => ?_⟩
      · obtain rfl : old = c := Option.some.inj (hold.symm.trans hc)
        obtain ⟨c', hc', hdesc⟩ := descends_of_exec hm hd h hold
        obtain rfl := Option.some.inj (hk.symm.trans hc')
        exact ⟨_, hk, advance_of_writes hm hd rfl (fun st => hr k d st rfl) hold hdesc⟩
      · cases hold.symm.trans hn

end Rows

section Known

lemma Within.step (h : Within x.before log i k) (hx : looksUpBy i x = false)
    (hrow : ∀ c, x.before.chains.row k = some c → ∃ c', x.after.chains.row k = some c') :
    Within x.after (x :: log) i k := by
  obtain ⟨c, hc, hle⟩ := h
  obtain ⟨c', hc'⟩ := hrow c hc
  refine ⟨c', hc', fun st hst hs => ?_⟩
  obtain ⟨hp, hs⟩ := not_since_cons hs hx
  by_contra hlt
  exact hp ⟨c, c', hc, hc', hle st hst hs, by omega⟩

lemma spent_of_exec (h : exec o s σ = some (r, σ')) (hp : ¬ PutsSeeds k (.answered i s r σ σ'))
    (hs : Spent σ k) : Spent σ' k := by
  intro n y hn hy
  have hused (hu : σ.used (k, n)) : σ'.used (k, n) := by
    obtain ⟨j, z, hz, hid⟩ := used_iff.1 hu
    cases exec_roundChange h with
    | kept hk => exact used_iff.2 ⟨j, z, hk ▸ hz, hid⟩
    | created hfree hk =>
        have := σ.rounds.fresh j z hz
        exact used_iff.2 ⟨j, z, by rw [hk, if_neg (by omega), hz], hid⟩
  cases exec_seedChange h (k, n) with
  | kept hk => exact hused (hs n y hn (hk.symm.trans hy))
  | revealed hold hk => exact hused (hs n _ hn hold)
  | inserted hfree hi hk =>
      have hlen := (List.getElem?_eq_some_iff.1 hi).1
      exact absurd ⟨hfree 0 (by omega), _, hk 0 _ (List.getElem?_eq_getElem (by omega))⟩ hp

lemma Known.step (h : Known blockHash x.before log i m) (hl : looksUpBy i x = false) (hd : drawsBy i x = false)
    (hrow : ∀ k c, x.before.chains.row k = some c →
      ∃ c', x.after.chains.row k = some c' ∧ Descends blockHash c c')
    (hspent : ∀ k, ¬ PutsSeeds k x → Spent x.before k → Spent x.after k) :
    Known blockHash x.after (x :: log) i m where
  row := by
    intro k c hk
    obtain ⟨c₁, hc₁, hd₁⟩ := h.row k c hk
    obtain ⟨c₂, hc₂, hd₂⟩ := hrow k c₁ hc₁
    exact ⟨c₂, hc₂, hd₁.trans hd₂⟩
  within := fun k c hk => (h.within k c hk).step hl fun c hc => by
    obtain ⟨c', hc', -⟩ := hrow k c hc
    exact ⟨c', hc'⟩
  hash := h.hash
  unused := by
    intro k hk hs
    obtain ⟨hp, hs⟩ := not_since_cons hs hd
    exact hspent k hp (h.unused k hk hs)

lemma within_of_look (hc : σ.chains.row k = some c) (hle : rank c.status ≤ rank .armed) : Within σ log i k :=
  ⟨c, hc, fun _ hst _ => hle.trans hst⟩

lemma Known.learn (hm : Known blockHash σ log i m) (hd : m.Due P s) (ho : Memory.OneHash blockHash o s)
    (h : exec o s σ = some (r, σ')) :
    Known blockHash σ' (.answered i s r σ σ' :: log) i (m.learn s r) where
  row := by
    have hold (k : ℕ) (c : Chain) (hk : m.active = some (k, c) ∨ m.armed = some (k, c) ∨ (k, c) ∈ m.pendings) :
        ∃ c', σ'.chains.row k = some c' ∧ Descends blockHash c c' := by
      obtain ⟨c₁, hc₁, hd₁⟩ := hm.row k c hk
      obtain ⟨c₂, hc₂, hd₂⟩ := descends_of_exec hm hd h hc₁
      exact ⟨c₂, hc₂, hd₁.trans hd₂⟩
    rintro k c (hk | hk | hk)
    · rcases Memory.active_learn h hk with hk | ⟨rfl, hc, -⟩
      · exact hold k c (.inl hk)
      · exact ⟨c, hc, descends_refl⟩
    · rcases Memory.armed_learn h hk with ⟨hk, -⟩ | ⟨-, rfl, hc, -⟩
      · exact hold k c (.inr (.inl hk))
      · exact ⟨c, hc, descends_refl⟩
    · rcases Memory.pendings_learn h hk with ⟨hk, -⟩ | ⟨-, -, rfl, hc, -⟩
      · exact hold k c (.inr (.inr hk))
      · exact ⟨c, hc, descends_refl⟩
  within := by
    have hold (k : ℕ) (c : Chain) (hk : m.armed = some (k, c) ∨ (k, c) ∈ m.pendings)
        (hl : Memory.looksUp s r = false) : Within σ' (.answered i s r σ σ' :: log) i k := by
      refine Within.step (x := .answered i s r σ σ') (hm.within k c hk) (by simp [hl]) fun c hc => ?_
      obtain ⟨c', hc', -⟩ := descends_of_exec hm hd h hc
      exact ⟨c', hc'⟩
    rintro k c (hk | hk)
    · rcases Memory.armed_learn h hk with ⟨hk, hl⟩ | ⟨-, rfl, hc, hst⟩
      · exact hold k c (.inl hk) hl
      · exact within_of_look hc (by rw [hst])
    · rcases Memory.pendings_learn h hk with ⟨hk, hl⟩ | ⟨-, -, rfl, hc, hst⟩
      · exact hold k c (.inr hk) hl
      · exact within_of_look hc (by rw [hst]; decide)
  hash := by
    intro t x hx
    rcases Memory.hash_learn ho h hx with hx | hx
    · exact hm.hash t x hx
    · exact hx
  unused := by
    intro k hk hs
    rcases Memory.unused_learn hk with ⟨hk, hdraw⟩ | heq
    · obtain ⟨hp, hs⟩ := not_since_cons hs (by simp [hdraw])
      exact spent_of_exec h hp (hm.unused k hk hs)
    · cases heq
      obtain ⟨rfl, hnone⟩ := exec_nextUnusedSeed h
      exact fun n y hn hy => nextUnusedSeed_none hnone hn hy

end Known

section Runs

lemma CycleInv.answer (h : CycleInv P blockHash w) (hr : (timely blockHash).act i o s w)
    (hd : (memory i w.log).Due P s) (hs : exec o s w.state = some (r, σ')) :
    CycleInv P blockHash (w.answer i s r σ') := by
  obtain ⟨hlog, hm⟩ := h
  have hadv : Advances P (.answered i s r w.state σ') := by
    refine advances_of_exec (hm i) hd ?_ hs
    rintro k d st rfl hst
    exact hr.2 (k, st) (by simp [writesStatus, hst])
  refine ⟨fun x hx => ?_, fun j => ?_⟩
  · rcases List.mem_cons.1 hx with rfl | hx
    · exact hadv
    · exact hlog x hx
  · change Known blockHash σ' (.answered i s r w.state σ' :: w.log) j (memory j (_ :: w.log))
    by_cases hij : i = j
    · subst hij
      rw [memory, foldBy_self]
      exact (hm i).learn hd hr.1 hs
    · rw [memory, foldBy_answered hij]
      exact Known.step (x := .answered i s r w.state σ') (hm j) (by simp [hij]) (by simp [hij])
        (fun k c hc => descends_of_exec (hm i) hd hs hc) fun k hp hk => spent_of_exec hs hp hk

lemma CycleInv.keep (h : CycleInv P blockHash w) (hx : x.before = w.state) (hchains : x.after.chains = w.state.chains)
    (hseeds : x.after.seeds = w.state.seeds) (hrounds : x.after.rounds = w.state.rounds)
    (hmem : ∀ i, memory i (x :: w.log) = memory i w.log) (hl : ∀ i, looksUpBy i x = false)
    (hd : ∀ i, drawsBy i x = false) : CycleInv P blockHash ⟨x.after, x :: w.log⟩ := by
  obtain ⟨hlog, hm⟩ := h
  refine ⟨fun y hy => ?_, fun j => ?_⟩
  · rcases List.mem_cons.1 hy with rfl | hy
    · intro k
      rw [hchains, hx]
      refine ⟨fun c hc => ⟨c, hc, le_rfl, fun _ hs => hs, fun hne he => absurd he hne⟩, fun hn c hc => ?_⟩
      rw [hn] at hc
      cases hc
    · exact hlog y hy
  · rw [hmem]
    refine Known.step (hx ▸ hm j) (hl j) (hd j) (fun k c hc => ?_) fun k _ hk => ?_
    · rw [hchains]
      exact ⟨c, hx ▸ hc, descends_refl⟩
    · rw [hx] at hk
      intro n y hn hy
      have := hk n y hn (hseeds ▸ hy)
      unfold State.used at this ⊢
      rwa [hrounds]

lemma CycleInv.move {n : ℕ} {e : Event} {p : Option (Program fairness Outcome)} (h : CycleInv P blockHash w)
    (he : environment P e w.state = some (σ, p)) : CycleInv P blockHash (w.move n e σ) := by
  refine CycleInv.keep (x := .moved n e w.state σ) h rfl ?_ ?_ ?_ (fun _ => rfl) (fun _ => rfl) fun _ => rfl <;>
    cases e <;> obtain ⟨rfl, -⟩ := Prod.mk.inj (Option.some.inj he) <;> rfl

lemma CycleInv.kill (h : CycleInv P blockHash w) : CycleInv P blockHash (w.kill i w.state) :=
  CycleInv.keep (x := .killed i w.state w.state) h rfl rfl rfl rfl (fun _ => rfl) (fun _ => rfl) fun _ => rfl

lemma known_nil : Known blockHash σ [] i {} :=
  ⟨by simp, by simp, by simp, by simp⟩

/-- As long as no write comes too late, every step takes every epoch further or leaves it where it is. -/
theorem epochs_advance {c : FairConfig} (h : (timely blockHash).Reaches (system P) (Config.initial σ) c)
    (hx : x ∈ c.world.log) : Advances P x := by
  have hσ : CycleInv P blockHash ⟨σ, []⟩ := ⟨fun x hx => (by cases hx), fun _ => known_nil⟩
  have hinv : CycleInv P blockHash c.world :=
    (invariant_of_calls (fun _ _ _ _ _ _ hw hr hd hs => CycleInv.answer hw hr hd hs)
      (fun _ _ _ _ _ hw _ he => hw.move he) (fun _ _ hw _ => hw.kill) hσ h).1
  exact hinv.1 x hx

open Scenario

instance (k : ℕ) (st : ChainStatus) (x : FairEntry) : Decidable (Passes k st x) :=
  decidable_of_iff ((x.before.chains.row k).any fun c => (x.after.chains.row k).any fun c' =>
    rank c.status ≤ rank st ∧ rank st < rank c'.status) <| by
      simp [Passes, Option.any_eq_true]

instance (k : ℕ) (x : FairEntry) : Decidable (PutsSeeds k x) :=
  decidable_of_iff ((x.before.seeds.row (k, 0)).isNone ∧ (x.after.seeds.row (k, 0)).isSome) <| by
    simp [PutsSeeds, Option.isSome_iff_exists]

instance (i k : ℕ) (st : ChainStatus) (log : List FairEntry) : Decidable (InTime i k st log) :=
  inferInstanceAs (Decidable (_ ∧ (_ → _ → _)))

def statusOf (σ : State) (k : ℕ) : Option ChainStatus := (σ.chains.row k).map (·.status)

/-- The second round finds the seeds of its epoch used up, and opens the next epoch. -/
theorem rollover_advances : ∃ c : FairConfig, statusOf c.world.state 0 = some .exhausted ∧
    ∀ x ∈ c.world.log, Advances (params false .random) x := by
  have hrun : (system (params false .random)).run (Config.initial .empty)
      (.env (.call .openRound) :: opensRandom 0 ++ acts 0 3 ++ .env (.call .openRound) :: acts 1 3 ++
        opensRandom 1 ++ acts 1 3) = some _ := rfl
  exact ⟨_, rfl, fun x => epochs_advance (Rule.reaches_of_run (R := timely fun _ => "") (by decide) hrun)⟩

/-- A second lookup of a seed falls between the two inserts of a new epoch, and exhausts it unused. -/
theorem exhausted_unused : ∃ c : FairConfig,
    Rule.free.Reaches (system (params false .random)) (Config.initial .empty) c ∧
      statusOf c.world.state 0 = some .exhausted ∧ c.world.state.rounds.ids = [] ∧
      ∃ x ∈ c.world.log, ¬ Advances (params false .random) x := by
  have hrun : (system (params false .random)).run (Config.initial .empty)
      (.env (.call .allocateSeed) :: .env (.call .allocateSeed) :: opensRandom 0 ++ acts 1 2 ++ acts 0 1 ++
        acts 1 1) = some _ := rfl
  refine ⟨_, Rule.reaches_of_run Rule.obeys_free hrun, rfl, rfl, _, List.mem_cons_self, fun h => ?_⟩
  obtain ⟨c', hc', hadv⟩ := (h 0).1 _ rfl
  obtain rfl := Option.some.inj hc'
  rcases hadv.spent nofun rfl with hstrict | hspent
  · cases hstrict.1
  · cases hspent 1 _ le_rfl rfl

end Runs

end VaultRun.Safety.EpochLifeCycle
