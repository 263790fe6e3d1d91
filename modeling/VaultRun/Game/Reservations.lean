import VaultRun.Concurrency.Discipline
import VaultRun.Data.Sum
import VaultRun.Game.Lifecycle

/-!
What a call has read, in the lock of a round, when it reserves a bet, and what it has found when it claims a
win.
-/

namespace VaultRun.Game

open VaultRun.Concurrency VaultRun.Data Program BetsService

deriving instance DecidableEq for BetWhere

def Event.placed : Event → Option PlaceBet
  | .call (.placeBet a) => some a
  | _ => none

abbrev BetWhere.onRound (roundId : ℕ) : BetWhere :=
  { roundId := some roundId, status := some [.active, .reserving] }

abbrev BetWhere.ofSession (walletId since : ℕ) : BetWhere := { sessionOf := some (walletId, since) }

/-- The round a call has locked, what it has read since, and the bet its slot was found to hold. -/
structure Sight where
  locked : Option ℕ := none
  roundBets : Option (List (ℕ × Bet)) := none
  sessionBets : Option ((ℕ × ℕ) × List (ℕ × Bet)) := none
  found : Option (ℕ × Bet) := none

namespace Sight

variable (m : Sight)

def unlock : Sight := { m with locked := none, roundBets := none, sessionBets := none }

def look (w : BetWhere) (bets : List (ℕ × Bet)) : Sight :=
  match m.locked, w.sessionOf with
  | some r, none => if w = .onRound r then { m with roundBets := some bets, sessionBets := none } else m
  | some _, some s => if w = .ofSession s.1 s.2 then { m with sessionBets := some (s, bets) } else m
  | none, _ => m

def learn : (s : Stmt) → game.Reply s → Sight
  | .lockRound r, .ok _ => { m.unlock with locked := some r }
  | .findBets w none, .ok bets => m.look w bets
  | .createBet _, _ | .endTx _, _ => m.unlock
  | .findSlot _, .ok x => { m with found := x }
  | _, _ => m

end Sight

lemma total_eq_sum (f : Bet → ℤ) (bets : List (ℕ × Bet)) : total f bets = (bets.map fun b => f b.2).sum := by
  induction bets with
  | nil => rfl
  | cons b bets ih =>
      rw [List.map_cons, List.sum_cons, ← ih]
      rfl

lemma total_findMany {t : Table ℕ Bet} {p : ℕ → Bet → Bool} {q : Bet → Bool} {f : Bet → ℤ} :
    total f ((t.findMany p).filter fun b => q b.2) = t.sum fun k b => if p k b && q b then f b else 0 := by
  have hfilter : ((t.findMany p).filter fun b => q b.2) = t.findMany fun k b => p k b && q b := by
    simp only [Table.findMany, List.filter_filter, Bool.and_comm]
  rw [hfilter, total_eq_sum]
  exact Table.sum_findMany

def accounted (bets : List (ℕ × Bet)) : SessionTotals :=
  ⟨total (·.amount) (bets.filter (isWageredStatus ·.2.status)),
    total (·.payout) (bets.filter (isWonStatus ·.2.status))⟩

def reservedBy (walletId : ℕ) (bets : List (ℕ × Bet)) : ℤ :=
  total (·.amount) (bets.filter fun b => b.2.walletId = walletId ∧ b.2.status = .reserving)

structure WithinCaps (rg : EffectiveRg) (acc : SessionTotals) (reserved amt : ℤ) : Prop where
  wager : ∀ cap, rg.maxSessionWager = some cap → acc.wagered + reserved + amt ≤ cap
  loss : ∀ cap, rg.maxSessionLoss = some cap → acc.net + reserved + amt ≤ cap

def CapsPassed (a : PlaceBet) (walletId : ℕ) (amt : ℤ) (bets : List (ℕ × Bet)) (m : Sight) : Prop :=
  ∀ rg started pending, rgOf a = some (rg, started, pending) →
    (rg.maxSessionLoss ≠ none ∨ rg.maxSessionWager ≠ none) →
    ∃ found, m.sessionBets = some ((walletId, started), found) ∧
      WithinCaps rg (accounted found) (reservedBy walletId bets) amt

structure ReservePassed (P : Params) (a : PlaceBet) (m : Sight) (d : NewBet) : Prop where
  locked : m.locked = some d.slot.roundId
  amount : P.risk.checkBetAmount d.amount a.limits
  cap : d.maxWinPerBet = a.limits.map (·.maxWinPerBet)
  bets : ∃ bets, m.roundBets = some bets ∧ P.risk.checkRoundExposure
    (total (P.risk.potentialPayout ·.amount) (bets.filter (·.2.currency = d.currency))) d.amount ∧
      CapsPassed a d.walletId d.amount bets m

/-- What a call knows when it issues a statement; `ok` holds of the bets it is asked to place. -/
structure Sight.Due (P : Params) (ok : PlaceBet → Prop) (m : Sight) (s : Stmt) : Prop where
  issued : s.Issued
  reserve : ∀ d, s = .createBet d → ∃ a, ok a ∧ ReservePassed P a m d
  claim : ∀ b mult p, s = .claimWin b mult p → ∃ bet, m.found = some (b, bet) ∧
    p = P.risk.capPayout (floorPayout bet.amount mult) bet.maxWinPerBet

abbrev Heeds (P : Params) (ok : PlaceBet → Prop) {α : Type} (p : Program game α) : Prop :=
  ∀ m, Follows Sight.learn (Sight.Due P ok) (fun _ _ => True) p m

section Heeds

variable {P : Params} {ok : PlaceBet → Prop} {α : Type} {p : Program game α} {m : Sight} {s : Stmt}

lemma due_of_aside (hs : s.Issued) (hc : ∀ d, s ≠ .createBet d) (hw : ∀ b n p, s ≠ .claimWin b n p) :
    m.Due P ok s :=
  ⟨hs, fun d h => absurd h (hc d), fun b n p h => absurd h (hw b n p)⟩

lemma due_of_plain (hs : s.plain) : m.Due P ok s := by
  refine due_of_aside (Stmt.issued_of_plain hs) ?_ ?_
  · rintro d rfl
    cases hs
  · rintro b n p rfl
    cases hs

lemma due_of_part {q : Part} (hq : q ≠ .placeBet) (hq' : q ≠ .cashOut) (hs : q.Issues s) : m.Due P ok s := by
  refine due_of_aside hs.issued ?_ ?_
  · rintro d rfl
    cases hs.writes rfl
    exact hq rfl
  · rintro b n p rfl
    cases hs.writes rfl
    exact hq' rfl

lemma heeds_compositional : Compositional fun (α : Type) (p : Program game α) => Heeds P ok p :=
  follows_compositional

lemma heeds_plain (hp : p.Uses fun s : Stmt => s.plain) : Heeds P ok p :=
  fun _ => follows_of_uses hp fun _ _ => due_of_plain

lemma heeds_part {q : Part} (hp : p.Uses q.Issues) (hq : q ≠ .placeBet) (hq' : q ≠ .cashOut) : Heeds P ok p :=
  fun _ => follows_of_uses hp fun _ _ => due_of_part hq hq'

end Heeds

section PlaceBet

variable {P : Params} {ok : PlaceBet → Prop} {m : Sight}

lemma follows_sessionCaps (a : PlaceBet) (walletId r : ℕ) (amt : ℤ) (bets : List (ℕ × Bet))
    (hl : m.locked = some r) (hb : m.roundBets = some bets) :
    Follows Sight.learn (Sight.Due P ok) (fun out m' => ∀ u, out = .ok u → m'.locked = some r ∧
      m'.roundBets = some bets ∧ CapsPassed a walletId amt bets m') (sessionCaps a walletId amt bets) m := by
  cases hr : rgOf a with
  | none =>
      rw [sessionCaps, hr]
      rintro u -
      refine ⟨hl, hb, ?_⟩
      rintro rg started pending h
      rw [hr] at h
      cases h
  | some x =>
      obtain ⟨rg, started, pending⟩ := x
      rw [sessionCaps, hr]
      dsimp only
      split
      · rename_i hnone
        rintro u -
        refine ⟨hl, hb, ?_⟩
        rintro rg' started' pending' h hcaps
        rw [hr] at h
        obtain ⟨rfl, -⟩ := Prod.mk.inj (Option.some.inj h)
        simp_all
      · refine follows_bind (follows_await_bind (due_of_plain rfl) (fun found => ?_) fun e u hu => by cases hu)
        change Follows Sight.learn (Sight.Due P ok) _ (if rg.maxSessionWager.any
            (· < (accounted found).wagered + reservedBy walletId bets + amt) then
              raise (Err.reserveRejected .sessionWagerLimit)
          else if rg.maxSessionLoss.any (· < (accounted found).net + reservedBy walletId bets + amt) then
            raise (Err.reserveRejected .sessionLossLimit)
          else pure () : Program game Unit) _
        split
        · rintro u hu
          cases hu
        · split
          · rintro u hu
            cases hu
          · rintro u -
            have hsight : m.learn (.findBets (.ofSession walletId started) none) (.ok found) =
                { m with sessionBets := some ((walletId, started), found) } := by
              simp [Sight.learn, Sight.look, hl]
            rw [hsight]
            refine ⟨hl, hb, ?_⟩
            rintro rg' started' pending' h -
            rw [hr] at h
            obtain ⟨rfl, hs⟩ := Prod.mk.inj (Option.some.inj h)
            obtain ⟨rfl, -⟩ := Prod.mk.inj hs
            refine ⟨found, rfl, fun cap hcap => ?_, fun cap hcap => ?_⟩
            · simp_all
            · simp_all

/-- The insert of a reservation comes after its checks, in the lock of its round. -/
lemma heeds_reserve {a : PlaceBet} (ha : ok a) (slot : Slot) (w : ℕ × Wallet) (amt : ℤ)
    (hamt : P.risk.checkBetAmount amt a.limits) : Heeds P ok (reserve P a slot w amt) := by
  intro m
  refine follows_await_bind (due_of_plain rfl) (fun _ => ?_) fun _ => trivial
  have hend (e : Err) : Heeds P ok (await (.endTx slot.roundId) >>= fun _ => (raise e : Program game ℕ)) :=
    heeds_plain (by simp [Program.await])
  refine follows_catching (Follows.mono (Q := fun _ _ => True) ?_ fun r m' _ => ?_)
  · refine follows_await_bind (due_of_plain rfl) (fun bets => ?_) fun _ => trivial
    dsimp only
    by_cases hexp : P.risk.checkRoundExposure (total (P.risk.potentialPayout ·.amount)
        (bets.filter (·.2.currency = w.2.currency))) amt
    · rw [if_neg (by simp [hexp])]
      refine follows_bind ((follows_sessionCaps a w.1 slot.roundId amt bets (by simp [Sight.learn, Sight.look])
        (by simp [Sight.learn, Sight.look])).mono fun r m' hr => ?_)
      cases r with
      | error e => trivial
      | ok u =>
          obtain ⟨hl, hb, hcaps⟩ := hr u rfl
          refine follows_await (I := game) (Q := fun _ _ => True) ?_ fun _ => trivial
          refine ⟨fun _ => ⟨.placeBet, .create _⟩, ?_, nofun⟩
          intro d hd
          obtain rfl := Stmt.createBet.inj hd
          exact ⟨a, ha, hl, hamt, rfl, bets, hb, hexp, hcaps⟩
    · rw [if_pos (by simp [hexp])]
      trivial
  · cases r with
    | ok b => trivial
    | error e => exact hend e m'

lemma heeds_debitAndActivate (slot : Slot) (w : ℕ × Wallet) (amt : ℤ) (b : ℕ) :
    Heeds P ok (debitAndActivate P slot w amt b) := by
  have hK : Compositional fun (α : Type) (p : Program game α) => Heeds P ok p := heeds_compositional
  have hwrite {s : Stmt} (hs : Part.placeBet.Writes s) (hc : ∀ d, s ≠ .createBet d) : Heeds P ok (await s) := by
    refine fun m => follows_await (due_of_aside (fun _ => ⟨_, hs⟩) hc ?_) fun _ => trivial
    rintro b n p rfl
    cases hs
  have hdebit : Heeds P ok (P.wallet.debit w.1 amt .betDebit (.debit slot) b) := by
    have huses : (P.wallet.debit w.1 amt .betDebit (.debit slot) b).Uses fun s : Stmt => s.ofWallet :=
      wallet_debit_uses (m := fun _ => True) (u := fun _ => True) (fun s hs _ _ => hs) trivial trivial _ _ _ _
    refine fun m => follows_of_uses huses fun m s hs => due_of_aside ?_ ?_ ?_
    · intro hw
      cases s <;> simp_all
    · rintro d rfl
      cases hs
    · rintro b n p rfl
      cases hs
  have hactivate (tx : WalletTxResult) (ccy n : ℕ) : Heeds P ok (activate b tx ccy n) := by
    induction n with
    | zero => exact hK.ret _
    | succ n ih =>
        refine hK.bind (hK.attempt (hwrite (.activate b _) nofun)) fun r => ?_
        split
        · split <;> exact hK.ret _
        · split
          · exact hK.bind (hK.attempt (hwrite (.stampDebit b _) nofun)) fun _ => hK.ret _
          · exact ih
  refine hK.bind (hK.attempt hdebit) fun r => ?_
  split
  · exact hK.bind (hK.attempt (hwrite (.forget b) nofun)) fun _ => hK.ret _
  · exact hactivate _ _ _

lemma heeds_placeBet (a : PlaceBet) (ha : ok a) : Heeds P ok (placeBet P a) := by
  have hK : Compositional fun (α : Type) (p : Program game α) => Heeds P ok p := heeds_compositional
  have hrg : (rgGate a).Uses fun s : Stmt => s.plain := by
    cases hr : rgOf a with
    | none => simp [rgGate, hr]
    | some x => cases hs : x.1.maxSessionSec <;> simp [rgGate, hr, hs, Program.await]
  have hwallet : (wallet a.userId a.walletId).Uses fun s : Stmt => s.plain := by
    cases hw : a.walletId <;> simp [wallet, Program.await]
  refine hK.bind (heeds_plain (await_plain rfl)) fun state => ?_
  split
  · exact hK.ret _
  dsimp only
  split
  · exact hK.ret _
  split
  · exact hK.ret _
  rename_i hamt
  refine hK.bind (heeds_plain hrg) fun gate => ?_
  split
  · exact hK.ret _
  refine hK.bind (heeds_plain (await_plain rfl)) fun existing => ?_
  split
  · exact hK.ret _
  refine hK.bind (hK.attempt (heeds_plain hwallet)) fun found => ?_
  split
  · exact hK.ret _
  refine hK.bind (hK.attempt (heeds_reserve ha _ _ _ (by simpa using hamt))) fun reserved => ?_
  split
  · exact hK.ret _
  · exact heeds_debitAndActivate _ _ _ _

end PlaceBet

section Parts

variable {P : Params} {ok : PlaceBet → Prop}

lemma heeds_cashOut (n u : ℕ) (p : Panel) (mm : Option ℕ) : Heeds P ok (cashOut P n u p mm) := by
  have hK : Compositional fun (α : Type) (p : Program game α) => Heeds P ok p := heeds_compositional
  refine hK.bind (heeds_plain (await_plain rfl)) fun state => ?_
  split
  · exact hK.ret _
  split
  · exact hK.ret _
  refine hK.bind (heeds_plain ?_) fun mult => fun m => ?_
  · cases mm with
    | none => exact await_plain rfl
    | some x => trivial
  refine follows_await_bind (due_of_plain rfl) (fun found => ?_) fun _ => trivial
  match found with
  | none => trivial
  | some (id, bet) =>
      refine follows_await_bind (due_of_plain rfl) (fun wallet => ?_) fun _ => trivial
      refine follows_await_bind (due_of_plain rfl) (fun round => ?_) fun _ => trivial
      match round with
      | none => trivial
      | some round =>
          dsimp only
          split
          · trivial
          split
          · trivial
          refine follows_await_bind ⟨fun _ => ⟨.cashOut, .cashOut _ _ _⟩, nofun, ?_⟩ (fun claim => ?_) fun _ => trivial
          · intro b n p hs
            obtain ⟨hid, hdata⟩ := Stmt.updateBets.inj hs
            obtain rfl : id = b := by simpa using hid
            obtain ⟨rfl, rfl⟩ : mult = n ∧ _ = p := by simpa using hdata
            exact ⟨bet, rfl, rfl⟩
          · dsimp only
            split
            · trivial
            · exact heeds_part (payWin_uses _ _ _ _ _) (by decide) (by decide) _

lemma heeds_parts : Parts P (fun _ p => Heeds P ok p) ok where
  plain := heeds_plain
  placeBet := heeds_placeBet
  cancelBet n u p := heeds_part (cancelBet_uses n u p) (by decide) (by decide)
  cashOut := heeds_cashOut
  settleRound r := heeds_part (settleRound_uses r) (by decide) (by decide)
  voidBet o b := heeds_part (voidBet_uses o b) (by decide) (by decide)
  reconcileVoidingBets l := heeds_part (reconcileVoidingBets_uses l) (by decide) (by decide)
  reconcilePendingPayouts l := heeds_part (reconcilePendingPayouts_uses l) (by decide) (by decide)
  closeAndRefundRound r := heeds_part (closeAndRefundRound_uses r) (by decide) (by decide)
  recoverReservingBets t := heeds_part (recoverReservingBets_uses t) (by decide) (by decide)
  recoverStrandedActiveBets t := heeds_part (recoverStrandedActiveBets_uses t) (by decide) (by decide)
  drainPending l := heeds_part (drainPending_uses _ l) (by decide) (by decide)

lemma environment_heeds {e : Event} {n : ℕ} {σ σ' : State} {p : Program game Outcome}
    (he : environment P e n σ = some (σ', some p)) (hok : ∀ a, e = .call (.placeBet a) → ok a) : Heeds P ok p :=
  environment_parts_of heeds_parts heeds_compositional he hok

end Parts

def sight (i : ℕ) (log : List GameEntry) : Sight := foldBy Sight.learn {} i log

inductive Sight.Learns (m : Sight) : (s : Stmt) → game.Reply s → Sight → Prop
  | same {s : Stmt} {r : game.Reply s} (hc : ∀ d, s ≠ .createBet d) (he : ∀ n, s ≠ .endTx n) : Learns m s r m
  | locked (n : ℕ) : Learns m (.lockRound n) (.ok ()) { m.unlock with locked := some n }
  | round {n : ℕ} {bets : List (ℕ × Bet)} (hl : m.locked = some n) :
      Learns m (.findBets (.onRound n) none) (.ok bets) { m with roundBets := some bets, sessionBets := none }
  | session {n : ℕ} {s : ℕ × ℕ} {bets : List (ℕ × Bet)} (hl : m.locked = some n) :
      Learns m (.findBets (.ofSession s.1 s.2) none) (.ok bets) { m with sessionBets := some (s, bets) }
  | found {slot : Slot} (x : Option (ℕ × Bet)) : Learns m (.findSlot slot) (.ok x) { m with found := x }
  | unlocked {s : Stmt} {r : game.Reply s} : Learns m s r m.unlock

lemma Sight.learns (m : Sight) (s : Stmt) (r : game.Reply s) : m.Learns s r (m.learn s r) := by
  cases s with
  | lockRound n =>
      cases r with
      | ok u => exact .locked n
      | error e => exact .same nofun nofun
  | findSlot slot =>
      cases r with
      | ok x => exact .found x
      | error e => exact .same nofun nofun
  | findBets w take =>
      match take, r with
      | some n, _ => exact .same nofun nofun
      | none, .error e => exact .same nofun nofun
      | none, .ok bets =>
          change m.Learns _ _ (m.look w bets)
          unfold Sight.look
          split
          · rename_i n hl hw
            split
            · subst w
              exact .round hl
            · exact .same nofun nofun
          · rename_i n t hl hw
            split
            · subst w
              exact .session hl
            · exact .same nofun nofun
          · exact .same nofun nofun
  | createBet d | endTx n => exact .unlocked
  | _ => exact .same nofun nofun

section Locks

variable {P : Params} {o : Oracle} {i j n : ℕ} {s : Stmt} {σ σ' : State} {r : game.Reply s} {w : GameWorld}

@[reducible] def Stmt.locks : Stmt → Bool
  | lockRound _ | endTx _ | createBet _ => true
  | _ => false

attribute [local grind] State.recordLedger State.operatorMove State.operatorRollback State.createRound
  State.schedule State.raceLost State.enterPhase State.beginStart State.stop
  State.emitSettle State.updateNode State.setOperatorTx State.updateBets
  State.updateRollbacks State.updateRound State.stampCrashed in
lemma perform_roundLocks (h : perform P i s σ = some (r, σ')) (hs : s.locks = false) :
    σ'.roundLocks = σ.roundLocks := by
  cases s <;> simp only [perform, Option.some.injEq, Prod.mk.injEq, Stmt.locks,
    Bool.true_eq_false] at h hs <;> grind

lemma endTx_lock (hl : σ.roundLocks n = some j) (hj : j ≠ i) (m : ℕ) :
    (σ.endTx i m).roundLocks n = some j := by
  unfold State.endTx
  split_ifs with hm
  · by_cases hn : n = m
    · subst hn
      exact absurd (Option.some.inj (hl.symm.trans hm)) hj
    · simpa [hn] using hl
  · exact hl

lemma exec_lock (h : exec P o i s σ = some (r, σ')) (hl : σ.roundLocks n = some j)
    (hs : j ≠ i ∨ (∀ m, s ≠ .endTx m) ∧ ∀ d, s ≠ .createBet d) : σ'.roundLocks n = some j := by
  have hperform (r) (hp : perform P i s σ = some (r, σ')) : σ'.roundLocks n = some j := by
    cases s with
    | lockRound m =>
        simp only [perform] at hp
        split_ifs at hp with hall
        obtain ⟨-, rfl⟩ := Prod.mk.inj (Option.some.inj hp)
        by_cases hn : n = m
        · subst hn
          obtain rfl : j = i := by simpa [hl] using hall
          simp
        · simpa [hn] using hl
    | endTx m =>
        obtain ⟨-, rfl⟩ := Prod.mk.inj (Option.some.inj hp)
        exact endTx_lock hl (hs.resolve_right fun hs => hs.1 m rfl) m
    | createBet d =>
        have hj := hs.resolve_right fun hs => hs.2 d rfl
        simp only [perform, State.createBet, Option.some.injEq] at hp
        split_ifs at hp <;> obtain ⟨-, rfl⟩ := Prod.mk.inj hp
        · exact endTx_lock hl hj _
        · exact hl
    | _ => rwa [perform_roundLocks hp rfl]
  rcases exec_cases h with hp | ⟨-, e, -, rfl | ⟨r', hp⟩⟩ | ⟨-, rfl⟩
  · exact hperform _ hp
  · exact hl
  · exact hperform _ hp
  · exact hl

lemma exec_lockRound (h : exec P o i (.lockRound n) σ = some (.ok (), σ')) : σ'.roundLocks n = some i := by
  have hp := perform_of_ok h rfl
  simp only [perform] at hp
  split_ifs at hp
  obtain ⟨-, rfl⟩ := Prod.mk.inj (Option.some.inj hp)
  simp

def Holds (w : GameWorld) : Prop :=
  ∀ j n, ¬ Killed j w.log → (sight j w.log).locked = some n → w.state.roundLocks n = some j

@[simp] lemma sight_self {b a : State} {log : List GameEntry} :
    sight i (.answered i s r b a :: log) = (sight i log).learn s r := foldBy_self

@[simp] lemma sight_answered {b a : State} {log : List GameEntry} (h : i ≠ j) :
    sight j (.answered i s r b a :: log) = sight j log := foldBy_answered h

@[simp] lemma killed_answered {b a : State} {log : List GameEntry} :
    Killed j (.answered i s r b a :: log : List GameEntry) ↔ Killed j log := by simp [Killed]

@[simp] lemma killed_moved {e : Event} {b a : State} {log : List GameEntry} :
    Killed j (.moved n e b a :: log : List GameEntry) ↔ Killed j log := by simp [Killed]

lemma Holds.answer (h : Holds w) (he : exec P o i s w.state = some (r, σ')) : Holds (w.answer i s r σ') := by
  intro j n hk hl
  rw [World.answer_log, killed_answered] at hk
  rw [World.answer_log] at hl
  by_cases hj : j = i
  · subst hj
    rw [sight_self] at hl
    have hlearns := (sight j w.log).learns s r
    generalize (sight j w.log).learn s r = m at hl hlearns
    cases hlearns with
    | same hc hend => exact exec_lock he (h j n hk hl) (.inr ⟨hend, hc⟩)
    | locked m =>
        obtain rfl := Option.some.inj hl
        exact exec_lockRound he
    | round | session | found => exact exec_lock he (h j n hk hl) (.inr ⟨nofun, nofun⟩)
    | unlocked => cases hl
  · rw [sight_answered (Ne.symm hj)] at hl
    exact exec_lock he (h j n hk hl) (.inl hj)

lemma Holds.move (h : Holds w) {e : Event} {a : State} {p : Option (Program game Outcome)}
    (he : environment P e i w.state = some (a, p)) : Holds (w.move i e a) := by
  intro j n hk hl
  have hlocks : a.roundLocks = w.state.roundLocks := by
    cases e with
    | timer node =>
        simp only [environment, State.fire] at he
        split at he
        · cases he
        · split_ifs at he <;> obtain ⟨rfl, -⟩ := Prod.mk.inj (Option.some.inj he) <;> rfl
    | deadline node j =>
        simp only [environment, State.raceLost, State.schedule] at he
        split_ifs at he <;> obtain ⟨rfl, -⟩ := Prod.mk.inj (Option.some.inj he) <;> rfl
    | onSettle node roundId =>
        simp only [environment] at he
        split_ifs at he
        obtain ⟨rfl, -⟩ := Prod.mk.inj (Option.some.inj he)
        rfl
    | tick ms | call c | leaderLost node | boot node =>
        obtain ⟨rfl, -⟩ := Prod.mk.inj (Option.some.inj he)
        rfl
  rw [World.move_state, hlocks]
  exact h j n (by simpa using hk) hl

lemma Holds.kill (h : Holds w) (i : ℕ) : Holds (w.kill i (w.state.abort i)) := by
  intro j n hk hl
  have hj : j ≠ i := by
    rintro rfl
    exact hk ⟨_, _, List.mem_cons_self⟩
  have hlock := h j n (fun ⟨b, a, hmem⟩ => hk ⟨b, a, List.mem_cons_of_mem _ hmem⟩) hl
  simp [State.abort, hlock, hj]

lemma Holds.unique (h : Holds w) (hi : ¬ Killed i w.log) (hj : ¬ Killed j w.log)
    (hli : (sight i w.log).locked = some n) (hlj : (sight j w.log).locked = some n) : i = j :=
  Option.some.inj ((h i n hi hli).symm.trans (h j n hj hlj))

end Locks

end VaultRun.Game
