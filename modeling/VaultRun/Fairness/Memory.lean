import VaultRun.Concurrency.Discipline
import VaultRun.Fairness.Frame

/-!
What a call of the fairness service knows from its own answers, and what it has to know at each statement that
writes an epoch, a seed or a round.
-/

namespace VaultRun.Fairness

open VaultRun.Concurrency Program

/-- `vacant` says that the latest look found no active epoch, or one that the call has retired since. -/
structure Memory where
  active : Option (ℕ × Chain) := none
  vacant : Bool := false
  armed : Option (ℕ × Chain) := none
  pendings : List (ℕ × Chain) := []
  hashes : List (ℕ × String) := []
  salted : Option ℕ := none
  head : Option ℕ := none
  promoted : Option ℕ := none
  created : Option (ℕ × Chain) := none
  unused : Option (ℕ × Option AllocatedSeed) := none

namespace Memory

def learn (m : Memory) : (s : Stmt) → fairness.Reply s → Memory
  | .findActive, .ok none => { vacant := true, promoted := m.promoted }
  | .findActive, .ok (some c) => { active := some c, promoted := m.promoted }
  | .findFirst .armed, .ok c => { m with armed := c, pendings := [] }
  | .findFirst .pending, .ok c => { m with armed := none, pendings := c.toList, hashes := [], salted := none }
  | .findPendings, .ok cs => { pendings := cs, promoted := m.promoted }
  | .finalizedBlockHash t, .ok (some h) => { m with hashes := (t, h) :: m.hashes }
  | .latestBlockNumber, .ok n => { m with head := some n }
  | .updateChain k d, .ok c =>
      { m with
        vacant := m.vacant || (d.status = some .exhausted && m.active.any (·.1 = k))
        salted := if d.salt.isSome then some k else m.salted
        promoted :=
          if d.status = some .active then some c.1
          else if d.status = some .exhausted && m.promoted = some k then none
          else m.promoted }
  | .createChain row, .ok c => { m with created := some (c.1, row) }
  | .nextUnusedSeed k, .ok s => { m with unused := some (k, s) }
  | _, _ => m

section Due

variable (P : Params) (m : Memory) (k : ℕ)

@[reducible] def looksUp : (s : Stmt) → fairness.Reply s → Bool
  | .findFirst .armed, .ok _ | .findFirst .pending, .ok _ | .findPendings, .ok _ => true
  | _, _ => false

@[reducible] def drawsSeed : (s : Stmt) → fairness.Reply s → Bool
  | .nextUnusedSeed _, .ok _ => true
  | _, _ => false

/-- The salt of a pending epoch that the call has read, or the hash of its target block. -/
def Resolves (k : ℕ) (salt : String) : Prop :=
  ∃ c, (k, c) ∈ m.pendings ∧
    (c.salt = some salt ∨ c.salt = none ∧ ∃ t, c.targetBlock = some t ∧ (t, salt) ∈ m.hashes)

inductive Opens (row : Chain) : Prop
  | random (hsource : row.saltSource = .random) (htarget : row.targetBlock = none) (hsalt : row.salt.isSome)
      (hstatus : row.status = .armed ∨ row.status = .active ∧ m.vacant)
      (hmode : ¬ (P.requireBlockSalt ∧ P.saltProvider = .ethBlock))
  | ethBlock {n : ℕ} (hsource : row.saltSource = .ethBlock) (htarget : row.targetBlock = some (n + P.lead))
      (hsalt : row.salt = none) (hstatus : row.status = .pending) (hhead : m.head = some n)

inductive Served : Prop
  | active {c : Chain} (h : m.active = some (k, c)) (hc : FairnessService.refuses P c = false)
  | promoted (h : m.promoted = some k)
  | created {row : Chain} (h : m.created = some (k, row)) (hstatus : row.status = .active)
      (hmode : ¬ (P.requireBlockSalt ∧ P.saltProvider = .ethBlock))

inductive Writes : ChainData → Prop
  | retireActive {c : Chain} (h : m.active = some (k, c)) (hc : FairnessService.refuses P c) :
      Writes { status := some .exhausted }
  | retireArmed {c : Chain} (h : m.armed = some (k, c)) (hc : FairnessService.refuses P c) :
      Writes { status := some .exhausted }
  | exhaust (h : m.unused = some (k, none)) : Writes { status := some .exhausted }
  | promoteArmed {c : Chain} (hv : m.vacant) (hp : m.promoted = none) (h : m.armed = some (k, c))
      (hc : FairnessService.refuses P c = false) : Writes { status := some .active }
  | promoteSalted {c : Chain} (hv : m.vacant) (hp : m.promoted = none) (h : (k, c) ∈ m.pendings)
      (hs : m.salted = some k) : Writes { status := some .active }
  | salt {x : String} (h : m.Resolves k x) : Writes { salt := some x }
  | arm {x : String} (h : m.Resolves k x) : Writes { status := some .armed, salt := some x }

def Due : Stmt → Prop
  | .updateChain k d => m.Writes P k d
  | .createChain row =>
      m.Opens P row ∧ ∃ last, row.commitHash = (chainDown P.sha256Hex (P.chainLength - 1) last).headD ""
  | .createSeeds k seeds => ∃ row last, m.created = some (k, row) ∧
      seeds = chainDown P.sha256Hex (P.chainLength - 1) last ∧ row.commitHash = seeds.headD ""
  | .nextUnusedSeed k => m.Served P k
  | .createRound id crash => ∃ k a salt, m.unused = some (k, some a) ∧ a.seedId = id ∧ a.salt = some salt ∧
      crash = P.computeCrash a.seed salt
  | _ => True

end Due

section Learn

variable {m : Memory} {k : ℕ} {o : Oracle} {s : Stmt} {r : fairness.Reply s} {σ σ' : State} {c : Chain}

inductive Learns (m : Memory) : (s : Stmt) → fairness.Reply s → Memory → Prop
  | vacant : Learns m .findActive (.ok none) { vacant := true, promoted := m.promoted }
  | active {c : ℕ × Chain} : Learns m .findActive (.ok (some c)) { active := some c, promoted := m.promoted }
  | armed {c : Option (ℕ × Chain)} : Learns m (.findFirst .armed) (.ok c) { m with armed := c, pendings := [] }
  | pending {c : Option (ℕ × Chain)} : Learns m (.findFirst .pending) (.ok c)
      { m with armed := none, pendings := c.toList, hashes := [], salted := none }
  | pendings {cs : List (ℕ × Chain)} : Learns m .findPendings (.ok cs) { pendings := cs, promoted := m.promoted }
  | hash {t : ℕ} {h : String} : Learns m (.finalizedBlockHash t) (.ok (some h))
      { m with hashes := (t, h) :: m.hashes }
  | head {n : ℕ} : Learns m .latestBlockNumber (.ok n) { m with head := some n }
  | updated {k : ℕ} {d : ChainData} {c : ℕ × Chain} :
      Learns m (.updateChain k d) (.ok c) (m.learn (.updateChain k d) (.ok c))
  | created {row : Chain} {c : ℕ × Chain} : Learns m (.createChain row) (.ok c) { m with created := some (c.1, row) }
  | unused {k : ℕ} {a : Option AllocatedSeed} : Learns m (.nextUnusedSeed k) (.ok a) { m with unused := some (k, a) }
  | keeps {s : Stmt} {r : fairness.Reply s} (hlooks : looksUp s r = false) (hdraws : drawsSeed s r = false) :
      Learns m s r m

lemma learns (m : Memory) (s : Stmt) (r : fairness.Reply s) : Learns m s r (m.learn s r) := by
  unfold learn
  split
  · exact .vacant
  · exact .active
  · exact .armed
  · exact .pending
  · exact .pendings
  · exact .hash
  · exact .head
  · exact .updated
  · exact .created
  · exact .unused
  · refine .keeps ?_ ?_
    · unfold looksUp
      split <;> simp_all
    · unfold drawsSeed
      split <;> simp_all

lemma exists_learns (m : Memory) (s : Stmt) (r : fairness.Reply s) : ∃ m', m.learn s r = m' ∧ Learns m s r m' :=
  ⟨_, rfl, learns m s r⟩

lemma pendings_learn (h : exec o s σ = some (r, σ')) (hk : (k, c) ∈ (m.learn s r).pendings) :
    (k, c) ∈ m.pendings ∧ looksUp s r = false ∨
      looksUp s r ∧ (m.learn s r).hashes = [] ∧ σ' = σ ∧ σ.chains.row k = some c ∧ c.status = .pending := by
  obtain ⟨m', hm, hl⟩ := exists_learns m s r
  rw [hm] at hk ⊢
  cases hl with
  | vacant | active | armed => cases hk
  | pending =>
      obtain ⟨hr, rfl⟩ := Prod.mk.inj (Option.some.inj (perform_of_ok h rfl))
      obtain rfl := Except.ok.inj hr
      exact .inr ⟨rfl, rfl, rfl, findFirst_some (Option.mem_toList.1 hk)⟩
  | pendings =>
      obtain ⟨hr, rfl⟩ := Prod.mk.inj (Option.some.inj (perform_of_ok h rfl))
      obtain rfl := Except.ok.inj hr
      exact .inr ⟨rfl, rfl, rfl, by simpa using mem_byEpoch.1 hk⟩
  | hash | head | updated | created | unused => exact .inl ⟨hk, rfl⟩
  | keeps hlooks => exact .inl ⟨hk, hlooks⟩

lemma armed_learn (h : exec o s σ = some (r, σ')) (hk : (m.learn s r).armed = some (k, c)) :
    m.armed = some (k, c) ∧ looksUp s r = false ∨
      looksUp s r ∧ σ' = σ ∧ σ.chains.row k = some c ∧ c.status = .armed := by
  obtain ⟨m', hm, hl⟩ := exists_learns m s r
  rw [hm] at hk
  cases hl with
  | vacant | active | pending | pendings => cases hk
  | armed =>
      obtain ⟨hr, rfl⟩ := Prod.mk.inj (Option.some.inj (perform_of_ok h rfl))
      obtain rfl := Except.ok.inj hr
      exact .inr ⟨rfl, rfl, findFirst_some hk⟩
  | hash | head | updated | created | unused => exact .inl ⟨hk, rfl⟩
  | keeps hlooks => exact .inl ⟨hk, hlooks⟩

lemma active_looked (h : exec o s σ = some (r, σ')) (hk : (m.learn s r).active = some (k, c)) :
    m.active = some (k, c) ∨ σ' = σ ∧ σ.findActive = some (k, c) := by
  obtain ⟨m', hm, hl⟩ := exists_learns m s r
  rw [hm] at hk
  cases hl with
  | vacant | pendings => cases hk
  | active =>
      obtain ⟨hr, rfl⟩ := Prod.mk.inj (Option.some.inj (perform_of_ok h rfl))
      exact .inr ⟨rfl, (Except.ok.inj hr).trans hk⟩
  | armed | pending | hash | head | updated | created | unused | keeps => exact .inl hk

lemma active_learn (h : exec o s σ = some (r, σ')) (hk : (m.learn s r).active = some (k, c)) :
    m.active = some (k, c) ∨ σ' = σ ∧ σ.chains.row k = some c ∧ c.status = .active :=
  (active_looked h hk).imp_right fun ⟨hσ, hfound⟩ => ⟨hσ, findActive_some hfound⟩

lemma hashes_learn {t : ℕ} {x : String} (hk : (t, x) ∈ (m.learn s r).hashes) :
    (t, x) ∈ m.hashes ∨ (⟨s, r⟩ : Sigma fairness.Reply) = ⟨.finalizedBlockHash t, .ok (some x)⟩ := by
  obtain ⟨m', hm, hl⟩ := exists_learns m s r
  rw [hm] at hk
  cases hl with
  | vacant | active | pending | pendings => cases hk
  | hash =>
      rcases List.mem_cons.1 hk with heq | hk
      · obtain ⟨rfl, rfl⟩ := Prod.mk.inj heq
        exact .inr rfl
      · exact .inl hk
  | armed | head | updated | created | unused | keeps => exact .inl hk

lemma head_learn {n : ℕ} (hk : (m.learn s r).head = some n) :
    m.head = some n ∨ (⟨s, r⟩ : Sigma fairness.Reply) = ⟨.latestBlockNumber, .ok n⟩ := by
  obtain ⟨m', hm, hl⟩ := exists_learns m s r
  rw [hm] at hk
  cases hl with
  | vacant | active | pendings => cases hk
  | head =>
      obtain rfl := Option.some.inj hk
      exact .inr rfl
  | armed | pending | hash | updated | created | unused | keeps => exact .inl hk

lemma created_learn (h : exec o s σ = some (r, σ')) (hk : (m.learn s r).created = some (k, c)) :
    m.created = some (k, c) ∨ s = .createChain c ∧ σ'.chains.row k = some c := by
  obtain ⟨m', hm, hl⟩ := exists_learns m s r
  rw [hm] at hk
  cases hl with
  | vacant | active | pendings => cases hk
  | created =>
      obtain ⟨rfl, rfl⟩ := Prod.mk.inj (Option.some.inj hk)
      exact .inr ⟨rfl, (exec_createChain h).2⟩
  | armed | pending | hash | head | updated | unused | keeps => exact .inl hk

lemma unused_learn {x : Option AllocatedSeed} (hk : (m.learn s r).unused = some (k, x)) :
    m.unused = some (k, x) ∧ drawsSeed s r = false ∨
      (⟨s, r⟩ : Sigma fairness.Reply) = ⟨.nextUnusedSeed k, .ok x⟩ := by
  obtain ⟨m', hm, hl⟩ := exists_learns m s r
  rw [hm] at hk
  cases hl with
  | vacant | active | pendings => cases hk
  | unused =>
      obtain ⟨rfl, rfl⟩ := Prod.mk.inj (Option.some.inj hk)
      exact .inr rfl
  | armed | pending | hash | head | updated | created => exact .inl ⟨hk, rfl⟩
  | keeps hlooks hdraws => exact .inl ⟨hk, hdraws⟩

lemma salted_learn (h : exec o s σ = some (r, σ')) (hk : (m.learn s r).salted = some k) :
    m.salted = some k ∨ ∃ d x old, s = .updateChain k d ∧ d.salt = some x ∧
      σ'.chains.row k = some (d.apply old) := by
  obtain ⟨m', hm, hl⟩ := exists_learns m s r
  rw [hm] at hk
  cases hl with
  | vacant | active | pending | pendings => cases hk
  | @updated id d =>
      rw [← hm] at hk
      cases hd : d.salt with
      | none => exact .inl (by simpa [learn, hd] using hk)
      | some x =>
          obtain rfl : id = k := by simpa [learn, hd] using hk
          obtain ⟨old, -, -, hrow⟩ := exec_updateChain h
          exact .inr ⟨d, x, old, rfl, hd, hrow⟩
  | armed | hash | head | created | unused | keeps => exact .inl hk

lemma promoted_learn (h : exec o s σ = some (r, σ')) (hk : (m.learn s r).promoted = some k) :
    m.promoted = some k ∨ ∃ d, s = .updateChain k d ∧ d.status = some .active := by
  obtain ⟨m', hm, hl⟩ := exists_learns m s r
  rw [hm] at hk
  cases hl with
  | @updated id d c =>
      dsimp only [learn] at hk
      by_cases hd : d.status = some .active
      · have hc : c.1 = k := by simpa [hd] using hk
        obtain ⟨old, -, rfl, -⟩ := exec_updateChain h
        exact .inr ⟨d, by rw [← hc], hd⟩
      · refine .inl ?_
        simp only [if_neg hd] at hk
        split_ifs at hk with hdrop
        exact hk
  | vacant | active | armed | pending | pendings | hash | head | created | unused | keeps => exact .inl hk

lemma promoted_kept (h : m.promoted = some k)
    (hs : ∀ j d, s = .updateChain j d → d.status ≠ some .active ∧ (j = k → d.status ≠ some .exhausted)) :
    (m.learn s r).promoted = some k := by
  obtain ⟨m', hm, hl⟩ := exists_learns m s r
  rw [hm]
  cases hl with
  | @updated j d =>
      obtain ⟨hact, hex⟩ := hs j d rfl
      dsimp only [learn]
      rw [if_neg hact]
      split_ifs with hdrop
      · simp only [h, Bool.and_eq_true, decide_eq_true_eq, Option.some.injEq] at hdrop
        exact absurd hdrop.1 (hex hdrop.2.symm)
      · exact h
  | vacant | active | armed | pending | pendings | hash | head | created | unused | keeps => exact h

lemma vacant_learn (h : exec o s σ = some (r, σ')) (hk : (m.learn s r).vacant) :
    m.vacant ∨ (s = .findActive ∧ σ' = σ ∧ σ.findActive = none) ∨
      ∃ k c d, m.active = some (k, c) ∧ s = .updateChain k d ∧ d.status = some .exhausted ∧
        ∃ old, σ'.chains.row k = some (d.apply old) := by
  obtain ⟨m', hm, hl⟩ := exists_learns m s r
  rw [hm] at hk
  cases hl with
  | vacant =>
      obtain ⟨hr, rfl⟩ := Prod.mk.inj (Option.some.inj (perform_of_ok h rfl))
      exact .inr (.inl ⟨rfl, rfl, Except.ok.inj hr⟩)
  | active | pendings => cases hk
  | @updated id d =>
      by_cases hv : m.vacant
      · exact .inl hv
      · have hd : d.status = some .exhausted ∧ m.active.any (·.1 = id) := by simpa [learn, hv] using hk
        cases ha : m.active with
        | none => simp [ha] at hd
        | some a =>
            obtain rfl : a.1 = id := by simpa [ha] using hd.2
            obtain ⟨old, -, -, hrow⟩ := exec_updateChain h
            exact .inr (.inr ⟨a.1, a.2, d, rfl, rfl, hd.1, old, hrow⟩)
  | armed | pending | hash | head | created | unused | keeps => exact .inl hk

/-- The lookup of a block has one answer where it has any. -/
def OneHash (blockHash : ℕ → String) (o : Oracle) (s : Stmt) : Prop :=
  match o, s with
  | .hash (some h), .finalizedBlockHash t => h = blockHash t
  | _, _ => True

lemma hash_learn {blockHash : ℕ → String} {t : ℕ} {x : String} (ho : OneHash blockHash o s)
    (h : exec o s σ = some (r, σ')) (hx : (t, x) ∈ (m.learn s r).hashes) :
    (t, x) ∈ m.hashes ∨ x = blockHash t := by
  rcases hashes_learn hx with hx | heq
  · exact .inl hx
  · cases heq
    cases o with
    | hash y =>
        obtain ⟨hr, -⟩ := Prod.mk.inj (Option.some.inj h)
        obtain rfl := Except.ok.inj hr
        exact .inr ho
    | lost => cases (Prod.mk.inj (Option.some.inj h)).1
    | _ => cases h

instance (blockHash : ℕ → String) (o : Oracle) (s : Stmt) : Decidable (OneHash blockHash o s) := by
  unfold OneHash
  split <;> infer_instance

end Learn

end Memory

abbrev Heeds {α : Type} (P : Params) (Q : Except Err α → Memory → Prop) (p : Program fairness α) (m : Memory) :
    Prop :=
  Follows Memory.learn (Memory.Due P) Q p m

namespace FairnessService

variable {P : Params} {m m' : Memory} {k : ℕ} {activate : Bool}

section Epochs

/-- What a commitment to a salt has to be for an epoch to be opened on it. -/
inductive Backs (P : Params) (activate : Bool) (m : Memory) (c : SaltCommitment) : Prop
  | random (hsource : c.source = .random) (htarget : c.targetBlock = none) (hsalt : c.salt.isSome)
      (hmode : ¬ (P.requireBlockSalt ∧ P.saltProvider = .ethBlock)) (hv : activate → m.vacant)
  | ethBlock {n : ℕ} (hsource : c.source = .ethBlock) (htarget : c.targetBlock = some (n + P.lead))
      (hsalt : c.salt = none) (hhead : m.head = some n) (hv : activate = false)

structure Opened (P : Params) (activate : Bool) (m : Memory) (r : Except Err (Option (ℕ × Chain)))
    (m' : Memory) : Prop where
  served : ∀ x, r = .ok (some x) → activate → m'.Served P x.1
  vacant : m'.vacant = m.vacant
  promoted : m'.promoted = m.promoted

lemma heeds_daily {Q : Except Err SaltCommitment → Memory → Prop} (h : ∀ x, Q (.ok ⟨.random, some x, none⟩) m)
    (he : ∀ e, Q (.error e) m) : Heeds P Q DailySaltProvider.commit m :=
  follows_await_bind trivial h he

lemma heeds_insertEpoch {epoch : ℕ} {c : SaltCommitment} (hc : Backs P activate m c) :
    Heeds P (Opened P activate m) (insertEpoch P activate epoch c) m := by
  refine follows_await_bind trivial (fun last => ?_) fun e => ⟨by simp, rfl, rfl⟩
  have hlen : generateSeedChain P.sha256Hex P.chainLength last =
      some (chainDown P.sha256Hex (P.chainLength - 1) last) := if_neg (by have := P.two_le_chainLength; omega)
  rw [hlen]
  refine follows_await_bind ⟨?_, last, rfl⟩ (fun x => ?_) fun e => ⟨by simp, rfl, rfl⟩
  · cases hc with
    | random hsource htarget hsalt hmode hv =>
        refine .random hsource htarget hsalt ?_ hmode
        cases activate with
        | true => exact .inr ⟨by simp [hsalt], hv rfl⟩
        | false => exact .inl (by simp [hsalt])
    | ethBlock hsource htarget hsalt hhead hv =>
        exact .ethBlock hsource htarget hsalt (by simp [hsalt]) hhead
  · refine follows_await_bind ⟨_, last, rfl, rfl, rfl⟩ (fun u => ⟨fun y hy ha => ?_, rfl, rfl⟩)
      fun e => ⟨by simp, rfl, rfl⟩
    obtain rfl : x = y := by simpa using hy
    cases hc with
    | random hsource htarget hsalt hmode hv => exact .created rfl (by simp [ha, hsalt]) hmode
    | ethBlock hsource htarget hsalt hhead hv => simp [hv] at ha

lemma heeds_fallback {epoch : ℕ} (hv : activate → m.vacant) (hmode : P.requireBlockSalt = false) :
    Heeds P (Opened P activate m) (DailySaltProvider.commit >>= insertEpoch P activate epoch) m := by
  refine follows_bind (heeds_daily (fun x => ?_) fun e => ⟨by simp, rfl, rfl⟩)
  exact heeds_insertEpoch (.random rfl rfl rfl (by simp [hmode]) hv)

lemma heeds_createEpoch (hv : activate → m.vacant) :
    Heeds P (Opened P activate m) (createEpoch P activate) m := by
  have hnone {m' : Memory} (hm : m'.vacant = m.vacant) (hp : m'.promoted = m.promoted) :
      Opened P activate m (.ok none) m' := ⟨by simp, hm, hp⟩
  have hmono {m' : Memory} {r : Except Err (Option (ℕ × Chain))} {m'' : Memory} (h : Opened P activate m' r m'')
      (hm : m'.vacant = m.vacant) (hp : m'.promoted = m.promoted) : Opened P activate m r m'' :=
    ⟨h.served, h.vacant.trans hm, h.promoted.trans hp⟩
  refine follows_await_bind trivial (fun epochs => follows_bind (follows_attempt ?_)) fun e => ⟨by simp, rfl, rfl⟩
  unfold commit
  cases hp : P.saltProvider with
  | random =>
      refine heeds_daily (fun x => ?_) fun e => ?_
      · have hb : Backs P activate m ⟨.random, some x, none⟩ := .random rfl rfl rfl (by simp [hp]) hv
        cases activate <;> exact heeds_insertEpoch hb
      · dsimp only
        split_ifs with hs
        · exact hnone rfl rfl
        · exact heeds_fallback hv (by simpa using hs)
  | ethBlock =>
      refine follows_await_bind trivial (fun n => ?_) fun e => ?_
      · cases ha : activate with
        | true =>
            subst ha
            change Follows _ _ _ (if P.requireBlockSalt then _ else _) _
            split_ifs with hs
            · exact hnone rfl rfl
            · refine Follows.mono (heeds_fallback (fun _ => ?_) (by simpa using hs)) fun r m'' h => hmono h rfl rfl
              exact hv rfl
        | false =>
            subst ha
            exact (heeds_insertEpoch (.ethBlock rfl rfl rfl rfl rfl)).mono fun r m'' h => hmono h rfl rfl
      · dsimp only
        split_ifs with hs
        · exact hnone rfl rfl
        · exact heeds_fallback hv (by simpa using hs)

lemma heeds_tryResolve {c : Chain} (hc : (k, c) ∈ m.pendings) :
    Heeds P (fun r m' => (∃ hs, m' = { m with hashes := hs }) ∧ ∀ x, r = .ok (some x) → m'.Resolves k x)
      (tryResolve P c) m := by
  have hsame : ∃ hs, m = { m with hashes := hs } := ⟨m.hashes, rfl⟩
  unfold tryResolve resolve
  cases hp : P.saltProvider with
  | random => exact ⟨hsame, fun x hx => ⟨c, hc, .inl (Except.ok.inj hx)⟩⟩
  | ethBlock =>
      cases hs : c.salt with
      | some s => exact ⟨hsame, fun x hx => ⟨c, hc, .inl (hs.trans (Except.ok.inj hx))⟩⟩
      | none =>
          cases ht : c.targetBlock with
          | none => exact ⟨hsame, fun x hx => by cases hx⟩
          | some t =>
              unfold EthBlockSaltProvider.resolve
              dsimp only
              split_ifs
              · exact ⟨hsame, fun x hx => by cases hx⟩
              · refine follows_catching ?_
                refine follows_await (I := fairness) (s := Stmt.finalizedBlockHash t) trivial fun r => ?_
                match r with
                | .error e => exact ⟨hsame, fun x hx => by cases hx⟩
                | .ok none => exact ⟨hsame, fun x hx => by cases hx⟩
                | .ok (some h) =>
                    refine ⟨⟨(t, h) :: m.hashes, rfl⟩, fun x hx => ⟨c, hc, .inr ⟨hs, t, ht, ?_⟩⟩⟩
                    obtain rfl : h = x := by simpa using hx
                    exact List.mem_cons_self

end Epochs

section Serving

/-- What the lookup of the epoch to serve ends with: none where it has found none and promoted none. -/
structure Serves (P : Params) (r : Except Err (Option (ℕ × Chain))) (m : Memory) : Prop where
  some : ∀ c, r = .ok (some c) → m.Served P c.1 ∧ ∀ k, m.promoted = some k → k = c.1
  none : r = .ok none → m.vacant ∧ m.promoted = none

lemma serves_error {e : Err} : Serves P (.error e) m := ⟨by simp, by simp⟩

lemma heeds_promote {c : Chain} (hv : m.vacant) (hn : m.promoted = none)
    (h : m.armed = some (k, c) ∧ refuses P c = false ∨ (k, c) ∈ m.pendings ∧ m.salted = some k) :
    Heeds P (Serves P) (promote k) m := by
  refine follows_await_bind ?_ (fun x => ⟨fun c hc => ?_, by simp⟩) fun e => serves_error
  · rcases h with ⟨ha, hc⟩ | ⟨hp, hs⟩
    · exact .promoteArmed hv hn ha hc
    · exact .promoteSalted hv hn hp hs
  · obtain rfl : x = c := by simpa using hc
    exact ⟨.promoted rfl, by simp [Memory.learn]⟩

lemma heeds_armOrCreate (hv : m.vacant) (hp : m.promoted = none) : Heeds P (Serves P) (armOrCreate P) m := by
  have hcreate (m' : Memory) (hv : m'.vacant) (hp : m'.promoted = none) :
      Heeds P (Serves P) (createEpoch P true) m' := by
    refine (heeds_createEpoch fun _ => hv).mono fun r m'' h => ⟨fun c hc => ⟨h.served c hc rfl, ?_⟩, fun _ => ?_⟩
    · simp [h.promoted, hp]
    · exact ⟨h.vacant ▸ hv, h.promoted.trans hp⟩
  refine follows_await_bind trivial (fun r => ?_) fun e => serves_error
  match r with
  | none => exact hcreate _ hv hp
  | some (k, c) =>
      refine follows_bind ((heeds_tryResolve (k := k) (by simp [Memory.learn])).mono fun r m' h => ?_)
      obtain ⟨⟨hs, rfl⟩, hr⟩ := h
      match r with
      | .error e => exact serves_error
      | .ok none => exact hcreate _ hv hp
      | .ok (some x) =>
          refine follows_await_bind (.salt (hr x rfl)) (fun y => ?_) fun e => serves_error
          exact heeds_promote (c := c) (by simpa [Memory.learn] using hv) (by simpa [Memory.learn] using hp)
            (.inr ⟨by simp [Memory.learn], rfl⟩)

lemma heeds_promoteArmed (hv : m.vacant) (hp : m.promoted = none) : Heeds P (Serves P) (promoteArmed P) m := by
  refine follows_await_bind trivial (fun r => ?_) fun e => serves_error
  match r with
  | none => exact heeds_armOrCreate hv hp
  | some (k, c) =>
      by_cases hc : refuses P c
      · dsimp only
        rw [if_pos hc]
        refine follows_bind (follows_await_bind (.retireArmed rfl hc) (fun y => ?_) fun e => serves_error)
        exact heeds_armOrCreate (by simp [Memory.learn, hv]) (by simp [Memory.learn, hp])
      · dsimp only
        rw [if_neg hc]
        exact heeds_promote hv hp (.inl ⟨rfl, by simpa using hc⟩)

lemma heeds_ensureActiveChain (hp : m.promoted = none) : Heeds P (Serves P) (ensureActiveChain P) m := by
  refine follows_await_bind trivial (fun r => ?_) fun e => serves_error
  match r with
  | none => exact heeds_promoteArmed rfl hp
  | some (k, c) =>
      by_cases hc : refuses P c
      · dsimp only
        rw [if_pos hc]
        refine follows_bind (follows_await_bind (.retireActive rfl hc) (fun y => ?_) fun e => serves_error)
        exact heeds_promoteArmed (by simp [Memory.learn]) (by simp [Memory.learn, hp])
      · dsimp only
        rw [if_neg hc]
        refine ⟨fun x hx => ?_, by simp⟩
        obtain rfl : (k, c) = x := by simpa using hx
        exact ⟨.active rfl (by simpa using hc), by simp [Memory.learn, hp]⟩

/-- A seed that is handed out is what the latest look for one found; without one, the latest look found no
active epoch and the call has not promoted one for nothing. -/
structure Allocates (r : Except Err (Option AllocatedSeed)) (m : Memory) : Prop where
  some : ∀ a, r = .ok (some a) → ∃ k, m.unused = some (k, some a)
  none : r = .ok none → m.vacant ∧ m.promoted = none

lemma allocates_error {e : Err} : Allocates (.error e) m := ⟨by simp, by simp⟩

lemma allocates_some {a : AllocatedSeed} (h : m.unused = some (k, some a)) : Allocates (.ok (some a)) m := by
  refine ⟨fun b hb => ?_, by simp⟩
  obtain rfl : a = b := by simpa using hb
  exact ⟨k, h⟩

lemma heeds_allocateSeed (hp : m.promoted = none) : Heeds P Allocates (allocateSeed P) m := by
  refine follows_bind ((heeds_ensureActiveChain hp).mono fun r m₁ h₁ => ?_)
  match r with
  | .error e => exact allocates_error
  | .ok none => exact ⟨by simp, fun _ => h₁.none rfl⟩
  | .ok (some c) =>
      obtain ⟨hserved, hpro⟩ := h₁.some c rfl
      refine follows_await_bind hserved (fun s => ?_) fun e => allocates_error
      match s with
      | some a => exact allocates_some rfl
      | none =>
          refine follows_await_bind (.exhaust rfl) (fun _ => ?_) fun e => allocates_error
          refine follows_bind ((heeds_ensureActiveChain ?_).mono fun r m₂ h₂ => ?_)
          · cases hm : m₁.promoted with
            | none => simp [Memory.learn, hm]
            | some k => simp [Memory.learn, hm, hpro k hm]
          · match r with
            | .error e => exact allocates_error
            | .ok none => exact ⟨by simp, fun _ => h₂.none rfl⟩
            | .ok (some c') =>
                refine follows_await_bind (h₂.some c' rfl).1 (fun s => ?_) fun e => allocates_error
                match s with
                | none => exact allocates_error
                | some a => exact allocates_some rfl

end Serving

section Calls

lemma heeds_armOne {l : List (ℕ × Chain)} {x : ℕ × Chain} (hx : x ∈ l) (hm : m.pendings = l) :
    Heeds P (fun _ m' => m'.pendings = l) (armOne P () x) m := by
  refine follows_bind ((heeds_tryResolve (k := x.1) (by simpa [hm] using hx)).mono fun r m₁ h => ?_)
  obtain ⟨⟨hs, rfl⟩, hr⟩ := h
  match r with
  | .error e => exact hm
  | .ok none => exact hm
  | .ok (some y) => exact follows_await_bind (.arm (hr y rfl)) (fun _ => hm) fun _ => hm

lemma heeds_await {s : Stmt} (hs : m.Due P s) : Heeds P (fun _ _ => True) (await s) m :=
  follows_await (I := fairness) hs fun _ => trivial

lemma heeds_maintainOnce : Heeds P (fun _ _ => True) (maintainOnce P) m := by
  refine follows_await_bind trivial (fun l => ?_) fun _ => trivial
  refine follows_bind (follows_loop (J := fun m' => m'.pendings = l)
    (fun x hx acc m' hm => (heeds_armOne hx hm).mono ?_) ?_ rfl)
  · rintro (e | a) m' h
    · trivial
    · exact h
  · intro _ m' _
    refine follows_await_bind (I := fairness) (s := Stmt.findActive) trivial (fun r => ?_) fun _ => trivial
    match r with
    | none => trivial
    | some c =>
        refine follows_await_bind trivial (fun queued => ?_) fun _ => trivial
        by_cases hq : queued = 0
        · dsimp only
          rw [if_pos hq]
          refine follows_bind ((heeds_createEpoch (by simp)).mono fun r m' _ => ?_)
          cases r <;> trivial
        · dsimp only
          rw [if_neg hq]
          trivial

lemma heeds_maintain {node : ℕ} : Heeds P (fun _ _ => True) (maintain P node) m := by
  refine follows_await_bind trivial (fun b => ?_) fun _ => trivial
  cases b with
  | false => trivial
  | true =>
      refine follows_bind (follows_catching (heeds_maintainOnce.mono fun r m' _ => ?_))
      cases r <;> exact heeds_await trivial

lemma heeds_getCurrentCommit : Heeds P (fun _ _ => True) getCurrentCommit m := by
  refine follows_await_bind trivial (fun r => ?_) fun _ => trivial
  match r with
  | none => trivial
  | some c =>
      refine follows_await_bind trivial (fun revealed => ?_) fun _ => trivial
      exact follows_await_bind trivial (fun next => trivial) fun _ => trivial

lemma heeds_openRound (hp : m.promoted = none) : Heeds P (fun _ _ => True) (openRound P) m := by
  refine follows_bind ((heeds_allocateSeed hp).mono fun r m' h => ?_)
  match r with
  | .error e => trivial
  | .ok none => trivial
  | .ok (some a) =>
      obtain ⟨k, ha⟩ := h.some a rfl
      dsimp only [crashForSeed]
      cases hs : a.salt with
      | none => trivial
      | some salt => exact follows_await_bind ⟨k, a, salt, ha, rfl, hs, rfl⟩ (fun _ => trivial) fun _ => trivial

/-- What a call that hands out a seed, or none, has learnt. -/
def Hands (r : Except Err Outcome) (m : Memory) : Prop := ∀ a, r = .ok (.seed a) → Allocates (.ok a) m

theorem heeds_prog (c : Call) : Heeds P Hands (c.prog P) {} := by
  cases c with
  | allocateSeed =>
      refine follows_map ((heeds_allocateSeed rfl).mono fun r m' h a ha => ?_)
      match r, ha with
      | .ok b, ha =>
          obtain rfl : b = a := by simpa [Except.map] using ha
          exact h
  | maintain n =>
      refine follows_map (heeds_maintain.mono fun r m' _ a ha => ?_)
      cases r <;> cases ha
  | ensureChain =>
      refine follows_map (follows_bind ((heeds_ensureActiveChain rfl).mono fun r m' _ => ?_))
      cases r with
      | error e => exact fun a ha => by cases ha
      | ok c =>
          refine heeds_getCurrentCommit.mono fun r m' _ a ha => ?_
          cases r <;> cases ha
  | openRound =>
      refine follows_map ((heeds_openRound rfl).mono fun r m' _ a ha => ?_)
      cases r <;> cases ha
  | revealSeed k =>
      refine follows_map ((heeds_await (s := .revealSeed k) trivial).mono fun r m' _ a ha => ?_)
      cases r <;> cases ha

end Calls

end FairnessService

abbrev memory (i : ℕ) (log : List FairEntry) : Memory := foldBy Memory.learn ({} : Memory) i log

section Runs

variable {P : Params} {R : FairRule} {inv : FairWorld → Prop} {σ : State} {c : FairConfig}

lemma heeds_of_environment {e : Event} {σ a : State} {p : Program fairness Outcome}
    (h : environment P e σ = some (a, some p)) : Heeds P FairnessService.Hands p {} := by
  cases e with
  | call c =>
      obtain ⟨-, hp⟩ := Prod.mk.inj (Option.some.inj h)
      obtain rfl := Option.some.inj hp
      exact FairnessService.heeds_prog c
  | boot n => cases (Prod.mk.inj (Option.some.inj h)).2

theorem invariant_of_calls
    (hact : ∀ i o s w r a, inv w → R.act i o s w → (memory i w.log).Due P s →
      exec o s w.state = some (r, a) → inv (w.answer i s r a))
    (hmove : ∀ n e w a p, inv w → R.env n e w → environment P e w.state = some (a, p) → inv (w.move n e a))
    (hkill : ∀ i w, inv w → R.kill i w → inv (w.kill i w.state)) (hσ : inv ⟨σ, []⟩)
    (hc : R.Reaches (system P) (Config.initial σ) c) :
    inv c.world ∧ ∀ i a, c.threads[i]? = some (.live (.ret (.seed a))) →
      FairnessService.Allocates (.ok a) (memory i c.world.log) := by
  obtain ⟨hinv, hret⟩ := invariant_of_discipline (M := system P) (m := ({} : Memory))
    (φ := fun _ => Memory.Due P) (Q := fun _ => FairnessService.Hands)
    (fun _ _ w _ _ _ h => heeds_of_environment (σ := w.state) h) hact hmove hkill hσ hc
  exact ⟨hinv, fun i a ha => hret i _ ha a rfl⟩

end Runs

end VaultRun.Fairness
