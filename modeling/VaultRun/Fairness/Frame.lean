import Mathlib.Data.List.Pairwise
import VaultRun.Fairness.Service

/-!
What one statement does to the rows of the fairness tables, and what its answer tells of them.
-/

namespace VaultRun.Fairness

open VaultRun.Concurrency VaultRun.Data

variable {P : Params} {C : Contract (system P)} {o : Oracle} {s : Stmt} {σ σ' : State} {r : fairness.Reply s}
  {w w' : FairWorld} {i k : ℕ}

def Stmt.onChains : Stmt → Bool
  | updateChain _ _ | createChain _ => true
  | _ => false

def Stmt.onSeeds : Stmt → Bool
  | createSeeds _ _ | revealSeed _ => true
  | _ => false

def Stmt.onRounds : Stmt → Bool
  | createRound _ _ => true
  | _ => false

lemma perform_frame (h : perform s σ = some (r, σ')) :
    (s.onChains = false → σ'.chains = σ.chains) ∧ (s.onSeeds = false → σ'.seeds = σ.seeds) ∧
      (s.onRounds = false → σ'.rounds = σ.rounds) := by
  cases s with
  | updateChain k d =>
      simp only [perform] at h
      split at h <;> obtain ⟨-, rfl⟩ := Prod.mk.inj (Option.some.inj h) <;>
        exact ⟨by simp [Stmt.onChains], fun _ => rfl, fun _ => rfl⟩
  | createChain row =>
      have hp : σ.createChain row = (r, σ') := Option.some.inj h
      unfold State.createChain at hp
      split_ifs at hp <;> obtain ⟨-, rfl⟩ := Prod.mk.inj hp <;>
        exact ⟨by simp [Stmt.onChains], fun _ => rfl, fun _ => rfl⟩
  | createSeeds k seeds =>
      have hp : σ.createSeeds k seeds = (r, σ') := Option.some.inj h
      unfold State.createSeeds at hp
      split_ifs at hp <;> obtain ⟨-, rfl⟩ := Prod.mk.inj hp <;>
        exact ⟨fun _ => rfl, by simp [Stmt.onSeeds], fun _ => rfl⟩
  | createRound k c =>
      have hp : σ.createRound k c = (r, σ') := Option.some.inj h
      unfold State.createRound at hp
      dsimp only at hp
      split_ifs at hp <;> obtain ⟨-, rfl⟩ := Prod.mk.inj hp <;>
        exact ⟨fun _ => rfl, fun _ => rfl, by simp [Stmt.onRounds]⟩
  | revealSeed k =>
      simp only [perform] at h
      split_ifs at h <;> obtain ⟨-, rfl⟩ := Prod.mk.inj (Option.some.inj h) <;>
        exact ⟨fun _ => rfl, by simp [Stmt.onSeeds], fun _ => rfl⟩
  | latestBlockNumber | finalizedBlockHash | randomBytes => cases h
  | _ =>
      obtain ⟨-, rfl⟩ := Prod.mk.inj (Option.some.inj h)
      exact ⟨fun _ => rfl, fun _ => rfl, fun _ => rfl⟩

lemma exec_of_perform {p : Prop} (h : exec o s σ = some (r, σ')) (hkept : σ' = σ → p)
    (hp : ∀ r', perform s σ = some (r', σ') → p) : p := by
  rcases exec_cases h with hr | ⟨-, rfl | ⟨r', hr⟩⟩ | ⟨-, rfl⟩
  · exact hp r hr
  · exact hkept rfl
  · exact hp r' hr
  · exact hkept rfl

section Chains

inductive ChainChange (σ σ' : State) (k : ℕ) : Stmt → Prop
  | kept {t : Stmt} (h : σ'.chains.row k = σ.chains.row k) : ChainChange σ σ' k t
  | created {row : Chain} (hn : k = σ.chains.next) (h : σ'.chains.row k = some row) :
      ChainChange σ σ' k (.createChain row)
  | updated {d : ChainData} {old : Chain} (hold : σ.chains.row k = some old)
      (h : σ'.chains.row k = some (d.apply old)) : ChainChange σ σ' k (.updateChain k d)

lemma exec_chainChange (h : exec o s σ = some (r, σ')) (k : ℕ) : ChainChange σ σ' k s := by
  refine exec_of_perform h (fun hk => .kept (by rw [hk])) fun r' hr => ?_
  cases s with
  | updateChain id d =>
      simp only [perform] at hr
      split at hr <;> obtain ⟨-, rfl⟩ := Prod.mk.inj (Option.some.inj hr)
      · rename_i c hc
        by_cases hk : k = id
        · subst hk
          exact .updated hc (by simp [State.updateChain, hc])
        · refine .kept ?_
          simp [State.updateChain, hk]
      · exact .kept rfl
  | createChain row =>
      have hp : σ.createChain row = (r', σ') := Option.some.inj hr
      unfold State.createChain at hp
      split_ifs at hp <;> obtain ⟨-, rfl⟩ := Prod.mk.inj hp
      · by_cases hk : k = σ.chains.next
        · exact .created hk (by simp [hk])
        · exact .kept (by simp [hk])
      · exact .kept rfl
  | _ => exact .kept (by rw [(perform_frame hr).1 rfl])

/-- A row keeps its source and its target, and the salt that it has is not taken away. -/
lemma chain_of_exec (h : exec o s σ = some (r, σ')) {c : Chain} (hc : σ.chains.row k = some c) :
    ∃ c', σ'.chains.row k = some c' ∧ c'.saltSource = c.saltSource ∧ c'.targetBlock = c.targetBlock ∧
      (c.salt.isSome → c'.salt.isSome) := by
  cases exec_chainChange h k with
  | kept hk => exact ⟨c, hk.trans hc, rfl, rfl, id⟩
  | created hn hk =>
      rw [hn, Records.row_next] at hc
      cases hc
  | @updated d old hold hk =>
      obtain rfl := Option.some.inj (hold.symm.trans hc)
      refine ⟨_, hk, rfl, rfl, fun hs => ?_⟩
      cases hd : d.salt <;> simp [ChainData.apply, hd, hs]

lemma exec_updateChain {d : ChainData} {c : ℕ × Chain}
    (h : exec o (.updateChain k d) σ = some (.ok c, σ')) :
    ∃ old, σ.chains.row k = some old ∧ c = (k, d.apply old) ∧ σ'.chains.row k = some (d.apply old) := by
  have hp := perform_of_ok h rfl
  simp only [perform] at hp
  split at hp
  · obtain ⟨hc, rfl⟩ := Prod.mk.inj (Option.some.inj hp)
    rename_i old hold
    exact ⟨old, hold, (Except.ok.inj hc).symm, by simp [State.updateChain, hold]⟩
  · cases (Prod.mk.inj (Option.some.inj hp)).1

lemma exec_createChain {row : Chain} {c : ℕ × Chain}
    (h : exec o (.createChain row) σ = some (.ok c, σ')) :
    c = (σ.chains.next, row) ∧ σ'.chains.row c.1 = some row := by
  have hp : σ.createChain row = (.ok c, σ') := Option.some.inj (perform_of_ok h rfl)
  unfold State.createChain at hp
  split_ifs at hp
  · obtain ⟨hc, rfl⟩ := Prod.mk.inj hp
    obtain rfl := Except.ok.inj hc
    exact ⟨rfl, by simp⟩
  · cases (Prod.mk.inj hp).1

lemma mem_byEpoch {p : Chain → Bool} {c : ℕ × Chain} :
    c ∈ σ.byEpoch p ↔ σ.chains.row c.1 = some c.2 ∧ p c.2 := by
  obtain ⟨k, x⟩ := c
  simp [State.byEpoch]

lemma findActive_some {c : ℕ × Chain} (h : σ.findActive = some c) :
    σ.chains.row c.1 = some c.2 ∧ c.2.status = .active := by
  simpa using mem_byEpoch.1 (List.mem_of_getLast? h)

lemma findActive_latest {c d : Chain} {j : ℕ} (h : σ.findActive = some (k, c)) (hd : σ.chains.row j = some d)
    (hst : d.status = .active) : d.epoch ≤ c.epoch := by
  have hsorted : (σ.byEpoch (·.status = .active)).Pairwise fun a b => a.2.epoch ≤ b.2.epoch :=
    List.pairwise_insertionSort _ _
  have hmem : (j, d) ∈ σ.byEpoch (·.status = .active) := mem_byEpoch.2 ⟨hd, by simpa using hst⟩
  have hlast : (σ.byEpoch (·.status = .active)).getLast (List.ne_nil_of_mem hmem) = (k, c) :=
    (List.getLast_eq_iff_getLast?_eq_some _).2 h
  have hle := hsorted.rel_getLast_of_rel_getLast_getLast hmem le_rfl
  rwa [hlast] at hle

lemma findActive_none (h : σ.findActive = none) {c : Chain} (hc : σ.chains.row k = some c) :
    c.status ≠ .active := by
  intro hst
  have hnil : σ.byEpoch (·.status = .active) = [] := List.getLast?_eq_none_iff.1 h
  have hmem : (k, c) ∈ σ.byEpoch (·.status = .active) := mem_byEpoch.2 ⟨hc, by simpa using hst⟩
  rw [hnil] at hmem
  cases hmem

lemma findFirst_some {st : ChainStatus} {c : ℕ × Chain} (h : σ.findFirst st = some c) :
    σ.chains.row c.1 = some c.2 ∧ c.2.status = st := by
  simpa using mem_byEpoch.1 (List.mem_of_head? h)

end Chains

section Seeds

lemma row_foldl_insert {l : List String} {n : ℕ} {t : Table (ℕ × ℕ) Seed} {id : ℕ × ℕ} :
    ((l.zipIdx n).foldl (fun t s => t.insert (k, s.2) ⟨s.1, s.2 = 0⟩) t).row id =
      if id.1 = k ∧ n ≤ id.2 ∧ id.2 < n + l.length then (l[id.2 - n]?).map (⟨·, id.2 = 0⟩) else t.row id := by
  induction l generalizing n t with
  | nil =>
      rw [if_neg (by simp)]
      rfl
  | cons x l ih =>
      obtain ⟨j, m⟩ := id
      rw [List.zipIdx_cons, List.foldl_cons, ih, Table.row_insert]
      by_cases hj : j = k
      · subst hj
        rcases Nat.lt_trichotomy m n with hlt | rfl | hgt
        · rw [if_neg (by simp; omega), if_neg (by simp; omega), if_neg (by simp; omega)]
        · rw [if_neg (by simp), if_pos rfl, if_pos (by simp)]
          simp
        · have hm : m - n = (m - (n + 1)) + 1 := by omega
          by_cases hlt : m < n + 1 + l.length
          · rw [if_pos ⟨rfl, hgt, hlt⟩, if_pos ⟨rfl, by omega, by simp; omega⟩]
            simp [hm]
          · rw [if_neg (by simp; omega), if_neg (by simp; omega), if_neg (by simp; omega)]
      · rw [if_neg (by simp [hj]), if_neg (by simp [hj]), if_neg (by simp [hj])]

inductive SeedChange (σ σ' : State) (id : ℕ × ℕ) : Stmt → Prop
  | kept {t : Stmt} (h : σ'.seeds.row id = σ.seeds.row id) : SeedChange σ σ' id t
  | inserted {seeds : List String} {x : String} (hfree : ∀ j < seeds.length, σ.seeds.row (id.1, j) = none)
      (hx : seeds[id.2]? = some x)
      (h : ∀ j y, seeds[j]? = some y → σ'.seeds.row (id.1, j) = some ⟨y, j = 0⟩) :
      SeedChange σ σ' id (.createSeeds id.1 seeds)
  | revealed {old : Seed} (hold : σ.seeds.row id = some old)
      (h : σ'.seeds.row id = some { old with revealed := true }) : SeedChange σ σ' id (.revealSeed id)

lemma createSeeds_free {seeds : List String}
    (h : ¬ seeds.zipIdx.any fun s => (σ.seeds.row (k, s.2)).isSome) {j : ℕ} (hj : j < seeds.length) :
    σ.seeds.row (k, j) = none := by
  by_contra hrow
  apply h
  refine List.any_eq_true.2 ⟨(seeds[j], j), ?_, Option.isSome_iff_ne_none.2 hrow⟩
  exact List.mem_zipIdx_iff_getElem?.2 (List.getElem?_eq_getElem hj)

lemma exec_seedChange (h : exec o s σ = some (r, σ')) (id : ℕ × ℕ) : SeedChange σ σ' id s := by
  refine exec_of_perform h (fun hk => .kept (by rw [hk])) fun r' hr => ?_
  cases s with
  | createSeeds k seeds =>
      have hp : σ.createSeeds k seeds = (r', σ') := Option.some.inj hr
      unfold State.createSeeds at hp
      split_ifs at hp with hany <;> obtain ⟨-, rfl⟩ := Prod.mk.inj hp
      · exact .kept rfl
      · by_cases hid : id.1 = k ∧ id.2 < seeds.length
        · obtain ⟨rfl, hlt⟩ := hid
          refine .inserted (fun j hj => createSeeds_free hany hj) (List.getElem?_eq_getElem hlt) ?_
          intro j y hj
          have hlen := (List.getElem?_eq_some_iff.1 hj).1
          change (seeds.zipIdx.foldl _ σ.seeds).row (id.1, j) = _
          rw [row_foldl_insert, if_pos ⟨rfl, Nat.zero_le _, by simpa using hlen⟩]
          simp [hj]
        · refine .kept ?_
          change (seeds.zipIdx.foldl _ σ.seeds).row id = _
          rw [row_foldl_insert, if_neg (by simpa using hid)]
  | revealSeed k =>
      simp only [perform] at hr
      split_ifs at hr with hrow <;> obtain ⟨-, rfl⟩ := Prod.mk.inj (Option.some.inj hr)
      · by_cases hid : id = k
        · subst hid
          obtain ⟨old, hold⟩ := Option.isSome_iff_exists.1 hrow
          exact .revealed hold (by simp [State.revealSeed, hold])
        · refine .kept ?_
          simp [State.revealSeed, hid]
      · exact .kept rfl
  | _ => exact .kept (by rw [(perform_frame hr).2.1 rfl])

end Seeds

section Rounds

inductive RoundChange (σ σ' : State) : Stmt → Prop
  | kept {t : Stmt} (h : σ'.rounds = σ.rounds) : RoundChange σ σ' t
  | created {id : ℕ × ℕ} {c : ℕ} (hfree : σ.used id = false)
      (h : ∀ j, σ'.rounds.row j = if j = σ.rounds.next then some ⟨id, c⟩ else σ.rounds.row j) :
      RoundChange σ σ' (.createRound id c)

lemma used_iff {id : ℕ × ℕ} : σ.used id ↔ ∃ j r, σ.rounds.row j = some r ∧ r.seedId = id := by
  unfold State.used
  constructor
  · intro h
    obtain ⟨⟨j, r⟩, hr⟩ := Option.isSome_iff_exists.1 h
    exact ⟨j, r, Records.findUnique_eq_some.1 hr⟩
  · rintro ⟨j, r, hr⟩
    rw [Records.findUnique_eq_some.2 hr]
    rfl

lemma exec_roundChange (h : exec o s σ = some (r, σ')) : RoundChange σ σ' s := by
  refine exec_of_perform h (fun hk => .kept (by rw [hk])) fun r' hr => ?_
  cases s with
  | createRound k c =>
      have hp : σ.createRound k c = (r', σ') := Option.some.inj hr
      unfold State.createRound at hp
      dsimp only at hp
      split_ifs at hp with hfree <;> obtain ⟨-, rfl⟩ := Prod.mk.inj hp
      · exact .created (by rw [State.used, hfree]; rfl) fun j => rfl
      · exact .kept rfl
  | _ => exact .kept ((perform_frame hr).2.2 rfl)

lemma nextUnusedSeed_some {a : AllocatedSeed} (h : σ.nextUnusedSeed k = some a) :
    a.seedId.1 = k ∧ 1 ≤ a.seedId.2 ∧ σ.used a.seedId = false ∧
      (∃ x, σ.seeds.row a.seedId = some x ∧ a.seed = x.seed) ∧ a.salt = (σ.chains.row k).bind (·.salt) ∧
      ∀ j x, 1 ≤ j → σ.seeds.row (k, j) = some x → σ.used (k, j) = false → a.seedId.2 ≤ j := by
  obtain ⟨⟨id, x⟩, hx, rfl⟩ := Option.map_eq_some_iff.1 h
  have hmem : (id, x) ∈ σ.unusedSeeds k := List.mem_of_head? hx
  simp only [State.unusedSeeds, List.mem_insertionSort, Table.mem_findMany] at hmem
  obtain ⟨hrow, hp⟩ := hmem
  simp only [Bool.and_eq_true, decide_eq_true_eq, Bool.not_eq_true'] at hp
  obtain ⟨⟨hk, hone⟩, hfree⟩ := hp
  refine ⟨hk, hone, hfree, ⟨x, hrow, rfl⟩, rfl, fun j y hj hy hu => ?_⟩
  have hmem : ((k, j), y) ∈ σ.unusedSeeds k := by
    simp [State.unusedSeeds, hy, hj, hu]
  obtain ⟨l, hl⟩ : ∃ l, σ.unusedSeeds k = (id, x) :: l := by
    cases hl : σ.unusedSeeds k with
    | nil => rw [hl] at hx; cases hx
    | cons y l =>
        rw [hl] at hx
        obtain rfl := Option.some.inj hx
        exact ⟨l, rfl⟩
  have hsorted : (σ.unusedSeeds k).Pairwise fun a b => a.1.2 ≤ b.1.2 := List.pairwise_insertionSort _ _
  rw [hl] at hmem hsorted
  rcases List.mem_cons.1 hmem with heq | hmem
  · rw [← heq]
  · exact (List.pairwise_cons.1 hsorted).1 _ hmem

lemma exec_nextUnusedSeed {x : Option AllocatedSeed} (h : exec o (.nextUnusedSeed k) σ = some (.ok x, σ')) :
    σ' = σ ∧ σ.nextUnusedSeed k = x := by
  obtain ⟨hr, rfl⟩ := Prod.mk.inj (Option.some.inj (perform_of_ok h rfl))
  exact ⟨rfl, Except.ok.inj hr⟩

lemma nextUnusedSeed_none (h : σ.nextUnusedSeed k = none) {j : ℕ} {x : Seed} (hj : 1 ≤ j)
    (hx : σ.seeds.row (k, j) = some x) : σ.used (k, j) := by
  by_contra hu
  rw [Bool.not_eq_true] at hu
  have hnil : σ.unusedSeeds k = [] := List.head?_eq_none_iff.1 (Option.map_eq_none_iff.1 h)
  have hmem : ((k, j), x) ∈ σ.unusedSeeds k := by
    simp [State.unusedSeeds, hx, hj, hu]
  rw [hnil] at hmem
  cases hmem

end Rounds

section Uses

open Program

@[reducible] def Stmt.onEpochs : Stmt → Bool
  | findActive | findFirst _ | maxEpoch | createChain _ | createSeeds _ _ | latestBlockNumber
  | finalizedBlockHash _ | randomBytes => true
  | _ => false

variable {φ : Stmt → Prop} {activate : Bool}

lemma await_uses (h : φ s) : (Fairness.await s).Uses φ := uses_call.2 ⟨h, fun r => uses_ofReply r⟩

lemma commit_uses (hφ : ∀ s : Stmt, s.onEpochs → φ s) : (FairnessService.commit P).Uses φ := by
  unfold FairnessService.commit
  split
  · exact uses_bind.2 ⟨await_uses (hφ _ rfl), fun _ _ => trivial⟩
  · exact uses_bind.2 ⟨await_uses (hφ _ rfl), fun _ _ => trivial⟩

lemma insertEpoch_uses (hφ : ∀ s : Stmt, s.onEpochs → φ s) {epoch : ℕ} {c : SaltCommitment} :
    (FairnessService.insertEpoch P activate epoch c).Uses φ := by
  refine uses_bind.2 ⟨await_uses (hφ _ rfl), fun last _ => ?_⟩
  split
  · trivial
  · exact uses_bind.2 ⟨await_uses (hφ _ rfl), fun _ _ => uses_bind.2 ⟨await_uses (hφ _ rfl), fun _ _ => trivial⟩⟩

lemma createEpoch_uses (hφ : ∀ s : Stmt, s.onEpochs → φ s) : (FairnessService.createEpoch P activate).Uses φ := by
  have hdaily (epoch : ℕ) : (DailySaltProvider.commit >>= FairnessService.insertEpoch P activate epoch).Uses φ :=
    uses_bind.2 ⟨uses_bind.2 ⟨await_uses (hφ _ rfl), fun _ _ => trivial⟩, fun _ _ => insertEpoch_uses hφ⟩
  refine uses_bind.2 ⟨await_uses (hφ _ rfl), fun epochs _ => uses_bind.2 ⟨uses_attempt.2 (commit_uses hφ), ?_⟩⟩
  rintro (e | c) -
  · dsimp only
    split_ifs
    · trivial
    · exact hdaily _
  · dsimp only
    split_ifs
    · trivial
    · exact hdaily _
    · exact insertEpoch_uses hφ

lemma tryResolve_uses (hφ : ∀ s : Stmt, s.onEpochs → φ s) {c : Chain} :
    (FairnessService.tryResolve P c).Uses φ := by
  refine uses_catching.2 ⟨?_, fun _ _ => trivial⟩
  unfold FairnessService.resolve EthBlockSaltProvider.resolve
  split
  · trivial
  · split
    · trivial
    · trivial
    · split_ifs
      · trivial
      · exact await_uses (hφ _ rfl)

lemma promote_uses (hupd : ∀ k d, φ (.updateChain k d)) : (FairnessService.promote k).Uses φ :=
  uses_bind.2 ⟨await_uses (hupd _ _), fun _ _ => trivial⟩

lemma armOrCreate_uses (hφ : ∀ s : Stmt, s.onEpochs → φ s) (hupd : ∀ k d, φ (.updateChain k d)) :
    (FairnessService.armOrCreate P).Uses φ := by
  refine uses_bind.2 ⟨await_uses (hφ _ rfl), fun r _ => ?_⟩
  cases r with
  | none => exact createEpoch_uses hφ
  | some c =>
      refine uses_bind.2 ⟨tryResolve_uses hφ, fun x _ => ?_⟩
      cases x with
      | none => exact createEpoch_uses hφ
      | some x => exact uses_bind.2 ⟨await_uses (hupd _ _), fun _ _ => promote_uses hupd⟩

lemma ensureActiveChain_uses (hφ : ∀ s : Stmt, s.onEpochs → φ s) (hupd : ∀ k d, φ (.updateChain k d)) :
    (FairnessService.ensureActiveChain P).Uses φ := by
  have hretire (k : ℕ) : (FairnessService.retireChain k).Uses φ :=
    uses_bind.2 ⟨await_uses (hupd _ _), fun _ _ => trivial⟩
  have hpromote : (FairnessService.promoteArmed P).Uses φ := by
    refine uses_bind.2 ⟨await_uses (hφ _ rfl), fun r _ => ?_⟩
    cases r with
    | none => exact armOrCreate_uses hφ hupd
    | some c =>
        dsimp only
        split_ifs
        · exact uses_bind.2 ⟨hretire _, fun _ _ => armOrCreate_uses hφ hupd⟩
        · exact promote_uses hupd
  refine uses_bind.2 ⟨await_uses (hφ _ rfl), fun r _ => ?_⟩
  cases r with
  | none => exact hpromote
  | some c =>
      dsimp only
      split_ifs
      · exact uses_bind.2 ⟨hretire _, fun _ _ => hpromote⟩
      · trivial

end Uses

end VaultRun.Fairness
