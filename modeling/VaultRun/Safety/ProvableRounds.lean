import VaultRun.Fairness.Memory

/-!
Every round can be verified: its seed is its own and in the chain that its epoch has published, and its crash
is computed from that seed and the salt of the epoch, which no one changes once it is set.
-/

namespace VaultRun.Safety.ProvableRounds

open VaultRun.Concurrency VaultRun.Fairness Function

@[reducible] def resolving (blockHash : ℕ → String) : FairRule where
  act _ o s _ := Memory.OneHash blockHash o s
  kill _ _ := True
  env _ _ _ := True

/-- What a verifier of round `r` finds in the tables. -/
def Verifiable (sha256Hex : String → String) (crash : String → String → ℕ) (σ : State) (r : Round) : Prop :=
  ∃ x c salt, σ.seeds.row r.seedId = some x ∧ σ.chains.row r.seedId.1 = some c ∧ c.salt = some salt ∧
    r.crashPoint = crash x.seed salt ∧ sha256Hex^[r.seedId.2] x.seed = c.commitHash

/-- The lower seeds of the same epoch have been used. -/
def LowerUsed (σ : State) (id : ℕ × ℕ) : Prop :=
  ∀ n x, 1 ≤ n → n < id.2 → σ.seeds.row (id.1, n) = some x → σ.used (id.1, n)

section Tables

variable (P : Params) (blockHash : ℕ → String) (σ : State)

structure Provable : Prop where
  salt : ∀ k c t s, σ.chains.row k = some c → c.targetBlock = some t → c.salt = some s → s = blockHash t
  link : ∀ id x, σ.seeds.row id = some x →
    ∃ c, σ.chains.row id.1 = some c ∧ P.sha256Hex^[id.2] x.seed = c.commitHash
  first : ∀ id x, σ.seeds.row id = some x → ∃ y, σ.seeds.row (id.1, 0) = some y
  round : ∀ j r, σ.rounds.row j = some r → 1 ≤ r.seedId.2 ∧ LowerUsed σ r.seedId ∧
    Verifiable P.sha256Hex P.computeCrash σ r
  order : ∀ i j r r', i < j → σ.rounds.row i = some r → σ.rounds.row j = some r' →
    r.seedId.1 = r'.seedId.1 → r.seedId.2 < r'.seedId.2

structure Informed (m : Memory) : Prop where
  pending : ∀ k c, (k, c) ∈ m.pendings → ∃ c', σ.chains.row k = some c' ∧ c'.targetBlock = c.targetBlock ∧
    ∀ s, c.salt = some s → c'.salt = some s
  hash : ∀ t h, (t, h) ∈ m.hashes → h = blockHash t
  created : ∀ k row, m.created = some (k, row) → ∃ c, σ.chains.row k = some c ∧ c.commitHash = row.commitHash
  unused : ∀ k a, m.unused = some (k, some a) → 1 ≤ a.seedId.2 ∧ LowerUsed σ a.seedId ∧
    (∃ x, σ.seeds.row a.seedId = some x ∧ x.seed = a.seed) ∧
    ∀ s, a.salt = some s → ∃ c, σ.chains.row a.seedId.1 = some c ∧ c.salt = some s

end Tables

/-- What no statement takes back. -/
structure Grows (σ σ' : State) : Prop where
  chain : ∀ k c, σ.chains.row k = some c → ∃ c', σ'.chains.row k = some c' ∧ c'.commitHash = c.commitHash ∧
    c'.targetBlock = c.targetBlock ∧ ∀ s, c.salt = some s → c'.salt = some s
  seed : ∀ id x, σ.seeds.row id = some x → ∃ x', σ'.seeds.row id = some x' ∧ x'.seed = x.seed
  whole : ∀ k y, σ.seeds.row (k, 0) = some y → ∀ n x', σ'.seeds.row (k, n) = some x' →
    ∃ x, σ.seeds.row (k, n) = some x
  used : ∀ id, σ.used id → σ'.used id

variable {P : Params} {blockHash : ℕ → String} {σ σ' : State} {m : Memory} {o : Oracle} {s : Stmt}
  {r : fairness.Reply s}

section Grows

def KeepsSalt (σ : State) (s : Stmt) : Prop :=
  ∀ k d c x y, s = .updateChain k d → d.salt = some x → σ.chains.row k = some c → c.salt = some y → x = y

lemma grows_of_exec (h : exec o s σ = some (r, σ')) (hs : KeepsSalt σ s) : Grows σ σ' where
  chain := by
    intro k c hc
    cases exec_chainChange h k with
    | kept hk => exact ⟨c, hk.trans hc, rfl, rfl, fun _ => id⟩
    | created hn hk =>
        rw [hn, Data.Records.row_next] at hc
        cases hc
    | @updated d old hold hk =>
        obtain rfl : old = c := Option.some.inj (hold.symm.trans hc)
        refine ⟨_, hk, rfl, rfl, fun y hy => ?_⟩
        cases hd : d.salt with
        | none => simpa [ChainData.apply, hd] using hy
        | some x =>
            obtain rfl := hs k d _ x y rfl hd hold hy
            simp [ChainData.apply, hd]
  seed := by
    intro id x hx
    cases exec_seedChange h id with
    | kept hk => exact ⟨x, hk.trans hx, rfl⟩
    | inserted hfree hi hk =>
        have hlt := (List.getElem?_eq_some_iff.1 hi).1
        rw [show id = (id.1, id.2) from rfl, hfree id.2 hlt] at hx
        cases hx
    | revealed hold hk =>
        obtain rfl := Option.some.inj (hold.symm.trans hx)
        exact ⟨_, hk, rfl⟩
  whole := by
    intro k y hy n x' hx'
    cases exec_seedChange h (k, n) with
    | kept hk => exact ⟨x', hk.symm.trans hx'⟩
    | inserted hfree hi hk =>
        have hlt := (List.getElem?_eq_some_iff.1 hi).1
        rw [hfree 0 (by omega)] at hy
        cases hy
    | revealed hold hk => exact ⟨_, hold⟩
  used := by
    intro id hu
    obtain ⟨j, x, hx, hid⟩ := used_iff.1 hu
    cases exec_roundChange h with
    | kept hk => exact used_iff.2 ⟨j, x, hk ▸ hx, hid⟩
    | created hfree hk =>
        have hj : j ≠ σ.rounds.next := by
          rintro rfl
          rw [Data.Records.row_next] at hx
          cases hx
        exact used_iff.2 ⟨j, x, by rw [hk, if_neg hj, hx], hid⟩

lemma LowerUsed.grows {id : ℕ × ℕ} (h : LowerUsed σ id) (hg : Grows σ σ')
    (hfirst : ∃ y, σ.seeds.row (id.1, 0) = some y) : LowerUsed σ' id := by
  intro n x hn hlt hx
  obtain ⟨y, hy⟩ := hfirst
  obtain ⟨x₀, hx₀⟩ := hg.whole _ y hy n x hx
  exact hg.used _ (h n x₀ hn hlt hx₀)

lemma Verifiable.grows {sha : String → String} {crash : String → String → ℕ} {x : Round}
    (h : Verifiable sha crash σ x) (hg : Grows σ σ') : Verifiable sha crash σ' x := by
  obtain ⟨y, c, salt, hy, hc, hs, hcrash, hlink⟩ := h
  obtain ⟨y', hy', hseed⟩ := hg.seed _ _ hy
  obtain ⟨c', hc', hcommit, -, hsalt⟩ := hg.chain _ _ hc
  exact ⟨y', c', salt, hy', hc', hsalt _ hs, hseed ▸ hcrash, by rw [hseed, hcommit, hlink]⟩

end Grows

section Informed

lemma Informed.grows (h : Informed blockHash σ m) (hp : Provable P blockHash σ) (hg : Grows σ σ') :
    Informed blockHash σ' m where
  pending := by
    intro k c hc
    obtain ⟨c₁, hc₁, ht, hs⟩ := h.pending k c hc
    obtain ⟨c₂, hc₂, -, ht', hs'⟩ := hg.chain k c₁ hc₁
    exact ⟨c₂, hc₂, ht'.trans ht, fun s hcs => hs' s (hs s hcs)⟩
  hash := h.hash
  created := by
    intro k row hk
    obtain ⟨c₁, hc₁, hcommit⟩ := h.created k row hk
    obtain ⟨c₂, hc₂, hcommit', -⟩ := hg.chain k c₁ hc₁
    exact ⟨c₂, hc₂, hcommit'.trans hcommit⟩
  unused := by
    intro k a ha
    obtain ⟨hone, hlow, ⟨x, hx, hseed⟩, hsalt⟩ := h.unused k a ha
    refine ⟨hone, hlow.grows hg (hp.first _ x hx), ?_, fun s hs => ?_⟩
    · obtain ⟨x', hx', hseed'⟩ := hg.seed _ x hx
      exact ⟨x', hx', hseed'.trans hseed⟩
    · obtain ⟨c, hc, hcs⟩ := hsalt s hs
      obtain ⟨c', hc', -, -, hs'⟩ := hg.chain _ c hc
      exact ⟨c', hc', hs' s hcs⟩

lemma Informed.learn (h : Informed blockHash σ' m) (ho : Memory.OneHash blockHash o s)
    (hs : exec o s σ = some (r, σ')) : Informed blockHash σ' (m.learn s r) where
  pending := by
    intro k c hk
    rcases Memory.pendings_learn hs hk with ⟨hk, -⟩ | ⟨-, -, rfl, hc, -⟩
    · exact h.pending k c hk
    · exact ⟨c, hc, rfl, fun _ => id⟩
  hash := by
    intro t x hx
    rcases Memory.hash_learn ho hs hx with hx | hx
    · exact h.hash t x hx
    · exact hx
  created := by
    intro k row hk
    rcases Memory.created_learn hs hk with hk | ⟨-, hrow⟩
    · exact h.created k row hk
    · exact ⟨row, hrow, rfl⟩
  unused := by
    intro k a ha
    rcases Memory.unused_learn ha with ⟨ha, -⟩ | heq
    · exact h.unused k a ha
    · cases heq
      obtain ⟨rfl, ha⟩ := exec_nextUnusedSeed hs
      obtain ⟨rfl, hone, -, ⟨x, hx, hseed⟩, hsalt, hlow⟩ := nextUnusedSeed_some ha
      refine ⟨hone, fun n y hn hlt hy => ?_, ⟨x, hx, hseed.symm⟩, fun s hs => ?_⟩
      · by_contra hu
        have := hlow n y hn hy (by simpa using hu)
        omega
      · exact Option.bind_eq_some_iff.1 (hsalt.symm.trans hs)

end Informed

section Provable

lemma Provable.keepsSalt (hp : Provable P blockHash σ) (hm : Informed blockHash σ m) (hd : m.Due P s) :
    KeepsSalt σ s := by
  rintro k d c x y rfl hx hc hy
  have hres : m.Resolves k x := by
    cases hd with
    | salt h | arm h =>
        obtain rfl := Option.some.inj hx
        exact h
    | _ => cases hx
  obtain ⟨c₀, hmem, hsalt⟩ := hres
  obtain ⟨c₁, hc₁, ht, hs⟩ := hm.pending k c₀ hmem
  obtain rfl : c₁ = c := Option.some.inj (hc₁.symm.trans hc)
  rcases hsalt with h | ⟨-, t, ht', hh⟩
  · exact Option.some.inj ((hs x h).symm.trans hy)
  · rw [hm.hash t x hh, hp.salt k c₁ t y hc (ht.trans ht') hy]

lemma Provable.step_salt (hp : Provable P blockHash σ) (hm : Informed blockHash σ m) (hd : m.Due P s)
    (h : exec o s σ = some (r, σ')) {k : ℕ} {c : Chain} {t : ℕ} {y : String}
    (hc : σ'.chains.row k = some c) (ht : c.targetBlock = some t) (hy : c.salt = some y) : y = blockHash t := by
  cases exec_chainChange h k with
  | kept hk => exact hp.salt k c t y (hk ▸ hc) ht hy
  | created hn hk =>
      obtain rfl := Option.some.inj (hk.symm.trans hc)
      cases hd.1 with
      | random _ htarget => rw [htarget] at ht; cases ht
      | ethBlock _ _ hsalt => rw [hsalt] at hy; cases hy
  | @updated d old hold hk =>
      obtain rfl := Option.some.inj (hk.symm.trans hc)
      have htold : old.targetBlock = some t := ht
      have hres (x : String) (hx : m.Resolves k x) : x = blockHash t := by
        obtain ⟨c₀, hmem, hsalt⟩ := hx
        obtain ⟨c₁, hc₁, ht₁, hs⟩ := hm.pending k c₀ hmem
        obtain rfl := Option.some.inj (hc₁.symm.trans hold)
        rcases hsalt with hx | ⟨-, t', ht', hh⟩
        · exact hp.salt k _ t x hold htold (hs x hx)
        · obtain rfl : t = t' := Option.some.inj (htold.symm.trans (ht₁.trans ht'))
          exact hm.hash t x hh
      cases hd with
      | salt hx | arm hx =>
          obtain rfl := Option.some.inj hy
          exact hres _ hx
      | _ => exact hp.salt k old t y hold htold (by simpa [ChainData.apply] using hy)

lemma Provable.step_seed (hp : Provable P blockHash σ) (hm : Informed blockHash σ m) (hd : m.Due P s)
    (h : exec o s σ = some (r, σ')) (hg : Grows σ σ') {id : ℕ × ℕ} {x : Seed}
    (hx : σ'.seeds.row id = some x) :
    (∃ c, σ'.chains.row id.1 = some c ∧ P.sha256Hex^[id.2] x.seed = c.commitHash) ∧
      ∃ y, σ'.seeds.row (id.1, 0) = some y := by
  have hold (x₀ : Seed) (hx₀ : σ.seeds.row id = some x₀) (hseed : x.seed = x₀.seed) :
      (∃ c, σ'.chains.row id.1 = some c ∧ P.sha256Hex^[id.2] x.seed = c.commitHash) ∧
        ∃ y, σ'.seeds.row (id.1, 0) = some y := by
    obtain ⟨c, hc, hlink⟩ := hp.link id x₀ hx₀
    obtain ⟨c', hc', hcommit, -⟩ := hg.chain _ c hc
    obtain ⟨y, hy⟩ := hp.first id x₀ hx₀
    obtain ⟨y', hy', -⟩ := hg.seed _ y hy
    exact ⟨⟨c', hc', by rw [hseed, hlink, hcommit]⟩, y', hy'⟩
  cases exec_seedChange h id with
  | kept hk => exact hold x (hk.symm.trans hx) rfl
  | revealed h₀ hk =>
      obtain rfl := Option.some.inj (hk.symm.trans hx)
      exact hold _ h₀ rfl
  | @inserted seeds y hfree hi hk =>
      obtain ⟨row, last, hcreated, rfl, hhead⟩ := hd
      obtain ⟨c, hc, hcommit⟩ := hm.created _ row hcreated
      obtain ⟨c', hc', hcommit', -⟩ := hg.chain _ c hc
      obtain rfl : (⟨y, id.2 = 0⟩ : Seed) = x := Option.some.inj ((hk id.2 y hi).symm.trans hx)
      have hzero := iterate_chainDown hi
      refine ⟨⟨c', hc', ?_⟩, _, hk 0 _ hzero.symm⟩
      rw [hcommit', hcommit, hhead, List.headD_eq_head?_getD, List.head?_eq_getElem?, ← hzero]
      rfl

lemma Provable.step_round (hp : Provable P blockHash σ) (hm : Informed blockHash σ m) (hd : m.Due P s)
    (h : exec o s σ = some (r, σ')) (hg : Grows σ σ') {j : ℕ} {x : Round}
    (hx : σ'.rounds.row j = some x) :
    1 ≤ x.seedId.2 ∧ LowerUsed σ' x.seedId ∧ Verifiable P.sha256Hex P.computeCrash σ' x := by
  have hold (hx : σ.rounds.row j = some x) :
      1 ≤ x.seedId.2 ∧ LowerUsed σ' x.seedId ∧ Verifiable P.sha256Hex P.computeCrash σ' x := by
    obtain ⟨hone, hlow, hv⟩ := hp.round j x hx
    obtain ⟨y, c, salt, hy, -⟩ := id hv
    exact ⟨hone, hlow.grows hg (hp.first _ y hy), hv.grows hg⟩
  cases exec_roundChange h with
  | kept hk => exact hold (hk ▸ hx)
  | @created id crash hfree hk =>
      rw [hk] at hx
      split_ifs at hx
      · obtain rfl := Option.some.inj hx
        obtain ⟨k, a, salt, hunused, rfl, hsalt, rfl⟩ := hd
        obtain ⟨hone, hlow, ⟨y, hy, hseed⟩, hs⟩ := hm.unused k a hunused
        obtain ⟨c, hc, hcs⟩ := hs salt hsalt
        obtain ⟨c', hc', hlink⟩ := hp.link _ y hy
        obtain rfl := Option.some.inj (hc.symm.trans hc')
        have hv : Verifiable P.sha256Hex P.computeCrash σ ⟨a.seedId, P.computeCrash a.seed salt⟩ :=
          ⟨y, c, salt, hy, hc, hcs, by rw [hseed], hlink⟩
        exact ⟨hone, hlow.grows hg (hp.first _ y hy), hv.grows hg⟩
      · exact hold hx

lemma Provable.step_order (hp : Provable P blockHash σ) (hm : Informed blockHash σ m) (hd : m.Due P s)
    (h : exec o s σ = some (r, σ')) {i j : ℕ} {x y : Round} (hij : i < j) (hx : σ'.rounds.row i = some x)
    (hy : σ'.rounds.row j = some y) (hchain : x.seedId.1 = y.seedId.1) : x.seedId.2 < y.seedId.2 := by
  cases exec_roundChange h with
  | kept hk => exact hp.order i j x y hij (hk ▸ hx) (hk ▸ hy) hchain
  | @created id crash hfree hk =>
      rw [hk] at hx hy
      split_ifs at hy with hj
      · rw [if_neg (by omega)] at hx
        obtain rfl := Option.some.inj hy
        obtain ⟨k, a, salt, hunused, rfl, hsalt, -⟩ := hd
        obtain ⟨hone, hlow, ⟨z, hz, -⟩, -⟩ := hm.unused k a hunused
        obtain ⟨hone', hlow', -⟩ := hp.round i x hx
        by_contra hle
        have hused : σ.used a.seedId := by
          rcases Nat.lt_or_eq_of_le (Nat.le_of_not_lt hle) with hlt | heq
          · have hid : a.seedId = (x.seedId.1, a.seedId.2) := Prod.ext hchain.symm rfl
            rw [hid] at hz ⊢
            exact hlow' _ z hone hlt hz
          · exact used_iff.2 ⟨i, x, hx, Prod.ext hchain heq.symm⟩
        rw [hfree] at hused
        cases hused
      · have hrow := σ.rounds.fresh j y hy
        rw [if_neg (by omega)] at hx
        exact hp.order i j x y hij hx hy hchain

lemma Provable.step (hp : Provable P blockHash σ) (hm : Informed blockHash σ m) (hd : m.Due P s)
    (h : exec o s σ = some (r, σ')) : Provable P blockHash σ' :=
  have hg := grows_of_exec h (hp.keepsSalt hm hd)
  { salt := fun _ _ _ _ => hp.step_salt hm hd h
    link := fun _ _ hx => (hp.step_seed hm hd h hg hx).1
    first := fun _ _ hx => (hp.step_seed hm hd h hg hx).2
    round := fun _ _ hx => hp.step_round hm hd h hg hx
    order := fun _ _ _ _ => hp.step_order hm hd h }

lemma provable_empty : Provable P blockHash .empty := by
  constructor <;> intros <;> contradiction

end Provable

section Runs

variable {c : FairConfig}

def RoundInv (P : Params) (blockHash : ℕ → String) (w : FairWorld) : Prop :=
  Provable P blockHash w.state ∧ ∀ i, Informed blockHash w.state (memory i w.log)

lemma informed_nil : Informed blockHash σ {} := by
  constructor <;> intros <;> contradiction

lemma RoundInv.answer {w : FairWorld} {i : ℕ} (h : RoundInv P blockHash w)
    (ho : (resolving blockHash).act i o s w) (hd : (memory i w.log).Due P s)
    (hs : exec o s w.state = some (r, σ')) : RoundInv P blockHash (w.answer i s r σ') := by
  obtain ⟨hp, hm⟩ := h
  have hg := grows_of_exec hs (hp.keepsSalt (hm i) hd)
  refine ⟨hp.step (hm i) hd hs, fun j => ?_⟩
  change Informed blockHash σ' (memory j (.answered i s r w.state σ' :: w.log))
  by_cases hj : i = j
  · subst hj
    rw [memory, foldBy_self]
    exact ((hm i).grows hp hg).learn ho hs
  · rw [memory, foldBy_answered hj]
    exact (hm j).grows hp hg

lemma RoundInv.move {w : FairWorld} {n : ℕ} {e : Event} {p : Option (Program fairness Outcome)}
    (h : RoundInv P blockHash w) (he : environment P e w.state = some (σ, p)) :
    RoundInv P blockHash (w.move n e σ) := by
  obtain ⟨⟨h₁, h₂, h₃, h₄, h₅⟩, hm⟩ := h
  cases e with
  | call c =>
      obtain ⟨rfl, -⟩ := Prod.mk.inj (Option.some.inj he)
      exact ⟨⟨h₁, h₂, h₃, h₄, h₅⟩, hm⟩
  | boot node =>
      obtain ⟨rfl, -⟩ := Prod.mk.inj (Option.some.inj he)
      exact ⟨⟨h₁, h₂, h₃, h₄, h₅⟩, fun i => ⟨(hm i).pending, (hm i).hash, (hm i).created, (hm i).unused⟩⟩

lemma provable_of_run (hσ : Provable P blockHash σ)
    (hc : (resolving blockHash).Reaches (system P) (Config.initial σ) c) : Provable P blockHash c.world.state :=
  (invariant_of_calls (fun _ _ _ _ _ _ hw ho hd hs => RoundInv.answer hw ho hd hs)
    (fun _ _ _ _ _ hw _ he => hw.move he) (fun _ _ hw _ => hw) ⟨hσ, fun _ => informed_nil⟩ hc).1.1

lemma provable_of_deployed {sha256Hex : String → String} {hmac : String → String → ℕ} {log : List FairEntry}
    (h : Deployed (fun P => P.sha256Hex = sha256Hex ∧ P.hmacSha256 = hmac) (resolving blockHash) σ log)
    (hP : P.sha256Hex = sha256Hex ∧ P.hmacSha256 = hmac) : Provable P blockHash σ := by
  induction h with
  | empty => exact provable_empty
  | @deploy P' σ log c _ hP' hc ih =>
      obtain ⟨h₁, h₂, h₃, h₄, h₅⟩ := ih
      have hP₁ : P'.sha256Hex = P.sha256Hex := hP'.1.trans hP.1.symm
      have hcrash : P'.computeCrash = P.computeCrash := by
        funext seed salt
        simp only [Params.computeCrash, hP'.2.trans hP.2.symm]
      obtain ⟨h₁, h₂, h₃, h₄, h₅⟩ :=
        provable_of_run (P := P') ⟨h₁, hP₁ ▸ h₂, h₃, hP₁ ▸ hcrash ▸ h₄, h₅⟩ hc
      exact ⟨h₁, hP₁ ▸ h₂, h₃, hP₁ ▸ hcrash ▸ h₄, h₅⟩

/-- Whatever deployments and leaders there have been, a round is the only one on its seed, which is not the
published one and comes after the seeds of the earlier rounds of its epoch, and it can be verified. -/
theorem rounds_provable {sha256Hex : String → String} {hmac : String → String → ℕ} {log : List FairEntry}
    {j : ℕ} {x : Round}
    (h : Deployed (fun P => P.sha256Hex = sha256Hex ∧ P.hmacSha256 = hmac) (resolving blockHash) σ log)
    (hx : σ.rounds.row j = some x) :
    (∀ i y, σ.rounds.row i = some y → y.seedId = x.seedId → i = j) ∧ x.seedId.2 ≠ 0 ∧
      (∀ i y, i < j → σ.rounds.row i = some y → y.seedId.1 = x.seedId.1 → y.seedId.2 < x.seedId.2) ∧
      Verifiable sha256Hex (fun seed salt => crashFromHmacHex (hmac seed salt)) σ x := by
  have hp := provable_of_deployed (P := ⟨false, .random, none, none, 0, 0, sha256Hex, hmac⟩) h ⟨rfl, rfl⟩
  obtain ⟨hone, -, hv⟩ := hp.round j x hx
  exact ⟨fun i y hy hid => σ.rounds.unique i j y x hy hx hid, by omega,
    fun i y hij hy hid => hp.order i j y x hij hy hx hid, hv⟩

open Scenario

/-- The first round of an empty deployment. -/
theorem first_round_provable : ∃ (c : FairConfig) (x : Round), c.world.state.rounds.row 0 = some x ∧
    x.crashPoint = 100000000 ∧ x.seedId.2 ≠ 0 ∧
      Verifiable (fun _ => "commit") (fun _ _ => crashFromHmacHex 0) c.world.state x := by
  have hrun : (system (params false .random)).run (Config.initial .empty)
      (.env (.call .openRound) :: opensRandom 0 ++ acts 0 3) = some _ := rfl
  have hreach := Rule.reaches_of_run (R := resolving fun _ => "") (by decide) hrun
  obtain ⟨-, hzero, -, hv⟩ := rounds_provable (j := 0) (Deployed.deploy .empty ⟨rfl, rfl⟩ hreach) rfl
  exact ⟨_, _, rfl, rfl, hzero, hv⟩

end Runs

end VaultRun.Safety.ProvableRounds
