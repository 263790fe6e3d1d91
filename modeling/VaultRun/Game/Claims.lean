import VaultRun.Game.Lifecycle

/-!
The calls that claim an active bet, up to the claim: what they have read when they get there, under
any contract that leaves reading alone.
-/

namespace VaultRun.Game

open VaultRun.Concurrency Program BetsService WalletRollbackService

def readWallet : Option GameEntry → Bool
  | some (.answered _ (.findWallet _) _ _ _) => true
  | _ => false

/-- `last` is a read of the round, found running and with a crash point above `m`. -/
def ReadRunning (m roundId : ℕ) (last : Option GameEntry) : Prop :=
  ∃ i round before after,
    last = some (.answered i (.findRound roundId) (.ok (some round)) before after) ∧
    before.rounds.row roundId = some round ∧ round.status = .running ∧ m < round.crashPoint

def BelowCrash (m roundId : ℕ) (σ : State) : Prop :=
  ∃ round, σ.rounds.row roundId = some round ∧ m < round.crashPoint

structure GatePassed (i b m : ℕ) (d : NewBet) (w : GameWorld) : Prop where
  terms : w.state.OnTerms b d
  below : BelowCrash m d.slot.roundId w.state
  read : ReadRunning m d.slot.roundId (lastBy i w.log)

variable {P : Params} {C : Contract (system P)} {i b m : ℕ} {w w' : GameWorld} {d : NewBet}

lemma BelowCrash.later {n : ℕ} {σ σ' : State} (h : BelowCrash m n σ) (hl : Later σ σ') :
    BelowCrash m n σ' := by
  obtain ⟨round, hr, hm⟩ := h
  obtain ⟨round', hr', hc⟩ := hl.round n round hr
  exact ⟨round', hr', hc ▸ hm⟩

lemma answers_findSlot {slot : Slot} {bet : Bet}
    (h : C.Answers i (.findSlot slot) w (.ok (some (b, bet))) w') :
    w'.state.OnTerms b bet.terms := by
  obtain ⟨o, σ', -, hexec, rfl⟩ := h
  obtain ⟨hrow, rfl⟩ : w.state.bets.findUnique slot = some (b, bet) ∧ w.state = σ' := by
    simpa [perform] using perform_of_ok hexec rfl
  exact State.onTerms_of_row (Data.Records.findUnique_eq_some.1 hrow).1

lemma answers_findRound {bet : Bet} {round : Round} (hterms : w.state.OnTerms b bet.terms)
    (h : C.Answers i (.findRound bet.slot.roundId) w (.ok (some round)) w')
    (hgate : ¬ (round.status ≠ .running ∨ round.crashPoint ≤ m)) :
    GatePassed i b m bet.terms w' := by
  obtain ⟨o, σ', -, hexec, rfl⟩ := h
  obtain ⟨hrow, rfl⟩ : w.state.rounds.row bet.slot.roundId = some round ∧ w.state = σ' := by
    simpa [perform] using perform_of_ok hexec rfl
  obtain ⟨hrunning, hbelow⟩ : round.status = .running ∧ m < round.crashPoint := by
    simpa using hgate
  exact ⟨hterms, ⟨round, hrow, hbelow⟩, ⟨i, round, w.state, w.state, by simp; rfl, hrow, hrunning, hbelow⟩⟩

lemma exec_findBets {wh : BetWhere} {take : Option ℕ} {bets : List (ℕ × Bet)} {o : Oracle} {σ σ' : State}
    (h : exec P o i (.findBets wh take) σ = some (.ok bets, σ')) : σ = σ' ∧ ∀ id bet, (id, bet) ∈ bets →
      σ.bets.row id = some bet ∧ wh.holds σ.rounds id bet := by
  obtain ⟨hbets, rfl⟩ : (take.map (σ.bets.findMany (wh.holds σ.rounds)).take).getD
      (σ.bets.findMany (wh.holds σ.rounds)) = bets ∧ σ = σ' := by
    simpa [perform] using perform_of_ok h rfl
  refine ⟨rfl, fun id bet hmem => ?_⟩
  have hfound : (id, bet) ∈ σ.bets.findMany (wh.holds σ.rounds) := by
    subst hbets
    cases take with
    | none => exact hmem
    | some n => exact List.mem_of_mem_take hmem
  exact Data.Table.mem_findMany.1 hfound

lemma answers_findBets {wh : BetWhere} {take : Option ℕ} {bets : List (ℕ × Bet)}
    (h : C.Answers i (.findBets wh take) w (.ok bets) w') :
    w'.state = w.state ∧ ∀ id bet, (id, bet) ∈ bets →
      w.state.bets.row id = some bet ∧ wh.holds w.state.rounds id bet := by
  obtain ⟨o, σ', -, hexec, rfl⟩ := h
  obtain ⟨rfl, hbets⟩ := exec_findBets hexec
  exact ⟨rfl, hbets⟩

lemma answers_findOwedRollbacks {now take : ℕ} {rows : List (RollbackRef × WalletRollback)}
    (h : C.Answers i (.findOwedRollbacks now take) w (.ok rows) w') :
    w'.state = w.state ∧ ∀ ref row, (ref, row) ∈ rows →
      w.state.rollbacks.row ref = some row ∧ row.owed now := by
  obtain ⟨o, σ', -, hexec, rfl⟩ := h
  obtain ⟨rfl, rfl⟩ : (w.state.rollbacks.findMany fun _ r => r.owed now).take take = rows ∧
      w.state = σ' := by
    simpa [perform] using perform_of_ok hexec rfl
  exact ⟨rfl, fun ref row hmem => Data.Table.mem_findMany.1 (List.mem_of_mem_take hmem)⟩

section Claims

variable (hC : ∀ s, C.stmts s → s.Issued)
include hC

lemma stable_gatePassed : C.Stable i (GatePassed i b m d) := by
  intro w w' h hw
  have hlater := disturbs_later hC h
  refine ⟨hw.terms.later hlater, hw.below.later hlater, ?_⟩
  rw [h.lastBy]
  exact hw.read

variable {J : GameWorld → Prop} (hJ : C.Stable i J)
  (hplain : ∀ {α : Type} {p : Program game α}, p.Uses (fun s : Stmt => s.plain) → Keeps C i J p)
include hJ hplain

omit hC hJ in
lemma sat_plain_bind {β : Type} {s : Stmt} {f : s.Result → Program game β} (hs : s.plain)
    (hi : C.inv w) (hw : J w)
    (h : ∀ w₁ a w₂, C.Interferes i w w₁ → C.inv w₂ → J w₂ → C.Answers i s w₁ (.ok a) w₂ →
      Sat C i (fun _ => J) (f a) w₂) :
    Sat C i (fun _ => J) (await s >>= f) w := by
  have hkeeps := hplain (await_plain hs) w hi hw
  intro w₁ h₁ hi₁
  obtain ⟨hpre, hk⟩ := hkeeps w₁ h₁ hi₁
  refine ⟨hpre, fun r w₂ ha hi₂ => ?_⟩
  have hr := hk r w₂ ha hi₂
  cases r with
  | ok a => exact h w₁ a w₂ h₁ hi₂ (hr w₂ .refl hi₂) ha
  | error e => exact hr

lemma keeps_cancelBet (n u : ℕ) (p : Panel)
    (hclaim : ∀ id bet ccy w, C.inv w → J w → readWallet (lastBy i w.log) →
      w.state.OnTerms id bet.terms → Sat C i (fun _ => J) (claimRefund P id bet ccy) w) :
    Keeps C i J (cancelBet P n u p) := by
  refine keeps_bind (hplain (await_plain rfl)) fun state => ?_
  split
  · exact keeps_ret hJ _
  split
  · exact keeps_ret hJ _
  intro w hi hw
  refine sat_plain_bind hplain rfl hi hw fun w₁ found w₂ _ hi₂ hw₂ hfound => ?_
  match found, hfound with
  | none, _ => exact keeps_ret hJ _ w₂ hi₂ hw₂
  | some (id, bet), hfound =>
      have hterms := answers_findSlot hfound
      refine sat_plain_bind hplain rfl hi₂ hw₂ fun w₃ wallet w₄ h₃ hi₄ hw₄ hwallet => ?_
      have hterms₃ := (stable_onTerms hC id bet.terms).interferes h₃ hterms
      have hterms₄ := hterms₃.later (answers_later hwallet (Stmt.issued_of_plain rfl))
      obtain ⟨a, rfl⟩ := hwallet.world
      dsimp only
      split
      · exact keeps_ret hJ _ _ hi₄ hw₄
      · exact hclaim id bet _ _ hi₄ hw₄ (by simp [readWallet]) hterms₄

lemma keeps_cashOut (n u : ℕ) (p : Panel) (mm : Option ℕ)
    (hclaim : ∀ id bet mult ccy w, C.inv w → J w → GatePassed i id mult bet.terms w →
      Sat C i (fun _ => J) (claimWin P id bet mult ccy) w) :
    Keeps C i J (cashOut P n u p mm) := by
  refine keeps_bind (hplain (await_plain rfl)) fun state => ?_
  split
  · exact keeps_ret hJ _
  split
  · exact keeps_ret hJ _
  refine keeps_bind (hplain ?_) fun mult => ?_
  · cases mm with
    | none => exact await_plain rfl
    | some m => trivial
  intro w hi hw
  refine sat_plain_bind hplain rfl hi hw fun w₁ found w₂ _ hi₂ hw₂ hfound => ?_
  match found, hfound with
  | none, _ => exact keeps_ret hJ _ w₂ hi₂ hw₂
  | some (id, bet), hfound =>
      have hterms := answers_findSlot hfound
      refine sat_plain_bind hplain rfl hi₂ hw₂ fun w₃ wallet w₄ h₃ hi₄ hw₄ hwallet => ?_
      have hterms₃ := (stable_onTerms hC id bet.terms).interferes h₃ hterms
      have hterms₄ := hterms₃.later (answers_later hwallet (Stmt.issued_of_plain rfl))
      refine sat_plain_bind hplain rfl hi₄ hw₄ fun w₅ found w₆ h₅ hi₆ hw₆ hread => ?_
      have hterms₅ := (stable_onTerms hC id bet.terms).interferes h₅ hterms₄
      match found, hread with
      | none, _ => exact keeps_raise hJ _ w₆ hi₆ hw₆
      | some round, hread =>
          dsimp only
          split
          · exact keeps_ret hJ _ _ hi₆ hw₆
          split
          · exact keeps_ret hJ _ _ hi₆ hw₆
          · exact hclaim id bet mult _ w₆ hi₆ hw₆ (answers_findRound hterms₅ hread ‹_›)

omit hC in
lemma keeps_drainPending
    {T : List (RollbackRef × WalletRollback) → GameWorld → Prop} (hT : ∀ rows, C.Stable i (T rows))
    (hfound : ∀ rows w, C.inv w → (∀ ref row, (ref, row) ∈ rows →
      w.state.rollbacks.row ref = some row) → T rows w)
    (hone : ∀ rows n, ∀ x ∈ rows, Keeps C i (fun w => J w ∧ T rows w) (drainOne n x)) (mode : Bool)
    (l : ℕ) : Keeps C i J (drainPending mode l) := by
  cases mode with
  | false => exact keeps_ret hJ 0
  | true =>
      intro w hi hw
      have hloop (rows : List (RollbackRef × WalletRollback)) {w₁ : GameWorld} (hi₁ : C.inv w₁)
          (hw₁ : J w₁) (hrows : T rows w₁) : Sat C i (fun _ => J) (Program.loop drainOne 0 rows) w₁ :=
        (keeps_loop (hJ.and (hT rows)) 0 (fun x hx n => hone rows n x hx) w₁ hi₁ ⟨hw₁, hrows⟩).mono
          fun _ _ _ h => h.1
      have hnone {w₁ : GameWorld} (hw₁ : J w₁) :
          Sat C i (fun _ => J) (Program.loop drainOne 0 []) w₁ :=
        fun w₂ h₂ _ => hJ.interferes h₂ hw₁
      refine sat_bind (sat_catching (sat_bind ((hplain (await_plain rfl) w hi hw).mono ?_)))
      rintro (e | now) w₁ hi₁ hw₁
      · exact fun w₂ h₂ hi₂ => hnone (hJ.interferes h₂ hw₁)
      · intro w₂ h₂ hi₂
        obtain ⟨hpre, hk⟩ := hplain (await_plain (s := .findOwedRollbacks now l) rfl) w₁ hi₁ hw₁ w₂ h₂ hi₂
        refine ⟨hpre, fun r w₃ ha hi₃ => ?_⟩
        have hw₃ := hk r w₃ ha hi₃
        match r with
        | .error e => exact fun w₄ h₄ hi₄ w₅ h₅ hi₅ => hnone (hJ.interferes h₅ (hw₃ w₄ h₄ hi₄))
        | .ok rows =>
            intro w₄ h₄ hi₄
            obtain ⟨hsame, hrow⟩ := answers_findOwedRollbacks ha
            refine hloop rows hi₄ (hw₃ w₄ h₄ hi₄) ((hT rows).interferes h₄ (hfound rows w₃ hi₃ ?_))
            exact fun ref row hmem => hsame ▸ (hrow ref row hmem).1

end Claims

end VaultRun.Game
