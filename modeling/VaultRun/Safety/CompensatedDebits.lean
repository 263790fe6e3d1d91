import VaultRun.Game.Scenario
import VaultRun.Game.WalletMoves

/-!
A debit that throws is compensated wherever a charge may have been applied, except where the operator refuses a
retry for insufficient funds; a credit is never rolled back.
-/

namespace VaultRun.Safety.CompensatedDebits

open VaultRun.Concurrency VaultRun.Data VaultRun.Game Program

@[reducible] def asksStore : Stmt → Bool
  | .findRollback _ | .createRollback _ _ | .updateRollback _ _ | .updateRollbacks _ _ | .findOwedRollbacks _ _ => true
  | _ => false

@[reducible] def starts : WalletEvent → Option WalletCall
  | .call c => some c
  | .tick _ => none

/-- Call `n` is `calls n`, and the rollback store works. -/
@[reducible] def working (calls : ℕ → WalletCall) : Rule game State WalletEvent Oracle where
  act _ o s _ := asksStore s → o = .ok
  kill _ _ := True
  env n e _ := ∀ c ∈ starts e, c = calls n

/-- A debit is for one bet, and the debits of a bet carry one key. -/
def OneKey (calls : ℕ → WalletCall) : Prop :=
  ∀ i j m m', calls i = .debit m → calls j = .debit m' → m.refId = m'.refId → m.key = m'.key

abbrev memory (i : ℕ) (log : List WalletEntry) : MoveMemory := foldBy MoveMemory.learn ({} : MoveMemory) i log

@[reducible] def acknowledges (k : Key) : WalletEntry → Bool
  | .answered _ (.operatorRollback _ k' _) (.ok _) _ _ => k' = k
  | _ => false

/-- The operator has acknowledged a rollback of the transaction. -/
@[reducible] def Acknowledged (k : Key) (log : List WalletEntry) : Prop := ∃ x ∈ log, acknowledges k x

/-- A rollback of the transaction is in the outbox and not confirmed. -/
def Owed (k : Key) (refId : ℕ) (σ : State) : Prop :=
  ∃ ref row, ref.betId = refId ∧ σ.rollbacks.row ref = some row ∧ row.transactionId = k ∧
    (row.status = .pending ∨ row.status = .draining)

/-- The call has claimed a rollback of its transaction, and it is acknowledged or owed. -/
def Compensated (i : ℕ) (m : Move) (w : WalletWorld) : Prop :=
  (∃ x ∈ w.log, ∃ ref, x.Issues i (Stmt.findRollback ref)) ∧
    (Acknowledged m.key w.log ∨ Owed m.key m.refId w.state)

def Attempts : WalletCall → Stmt → Prop
  | .debit m, .operatorBet req => req.transactionId = m.key ∧ req.amount = m.amount
  | .credit m, s => (∃ w, s = .resolveSession w) ∨
      ∃ req, s = .operatorWin req ∧ req.transactionId = m.key ∧ req.amount = m.amount
  | _, _ => True

variable {P : Params} {calls : ℕ → WalletCall} {i : ℕ} {o : Oracle} {s : Stmt} {r : game.Reply s}
  {σ σ' : State} {w : WalletWorld} {ref : RollbackRef}

section Rows

lemma rollback_kept (h : exec P o i s σ = some (r, σ')) {row : WalletRollback}
    (hrow : σ.rollbacks.row ref = some row) :
    ∃ row', σ'.rollbacks.row ref = some row' ∧ row'.transactionId = row.transactionId := by
  have hupdate (wh : RollbackWhere) (d : RollbackData) :
      ∃ row', (σ.updateRollbacks wh d).rollbacks.row ref = some row' ∧
        row'.transactionId = row.transactionId := by
    by_cases hw : wh.holds ref row
    · exact ⟨d.apply row, by simp [updateRollbacks_row, hrow, hw], rfl⟩
    · exact ⟨row, by simp [updateRollbacks_row, hrow, hw], rfl⟩
  cases s with
  | createRollback ref' row' =>
      rcases exec_createRollback h with ⟨rfl, -⟩ | ⟨hnone, rfl⟩
      · exact ⟨row, hrow, rfl⟩
      · by_cases hne : ref = ref'
        · subst hne
          rw [hnone] at hrow
          cases hrow
        · exact ⟨row, by simpa [hne] using hrow, rfl⟩
  | updateRollback ref' d =>
      rcases exec_updateRollback h with ⟨rfl, -⟩ | rfl
      · exact ⟨row, hrow, rfl⟩
      · exact hupdate _ _
  | updateRollbacks wh d =>
      rcases exec_updateRollbacks h with ⟨-, rfl⟩ | ⟨e, -, rfl | rfl⟩
      · exact hupdate _ _
      · exact ⟨row, hrow, rfl⟩
      · exact hupdate _ _
  | _ => exact ⟨row, by rw [exec_rollbacks h rfl]; exact hrow, rfl⟩

end Rows

section Told

structure Told (i : ℕ) (w : WalletWorld) : Prop where
  failed : (memory i w.log).failed = false
  claimed : ∀ ref, (memory i w.log).claimed = some ref → ∃ x ∈ w.log, x.Issues i (Stmt.findRollback ref)
  looked : ∀ x ∈ w.log, ∀ ref, x.Issues i (Stmt.findRollback ref) → (memory i w.log).claimed.isSome
  present : (memory i w.log).present →
    ∃ ref row, (memory i w.log).claimed = some ref ∧ w.state.rollbacks.row ref = some row
  acked : ∀ k, (memory i w.log).acked = some k → Acknowledged k w.log
  owed : ∀ ref row, (ref, row) ∈ (memory i w.log).owed →
    ∃ row', w.state.rollbacks.row ref = some row' ∧ row'.transactionId = row.transactionId

lemma acknowledged_cons {k : Key} {x : WalletEntry} {log : List WalletEntry} (h : Acknowledged k log) :
    Acknowledged k (x :: log) := by
  obtain ⟨y, hy, hk⟩ := h
  exact ⟨y, List.mem_cons_of_mem _ hy, hk⟩

lemma Told.step {x : WalletEntry} {σ : State} (h : Told i w)
    (hrows : ∀ ref row, w.state.rollbacks.row ref = some row →
      ∃ row', σ.rollbacks.row ref = some row' ∧ row'.transactionId = row.transactionId)
    (hfailed : (memory i (x :: w.log)).failed = false)
    (hclaimed : (memory i (x :: w.log)).claimed = (memory i w.log).claimed ∧
        (∀ ref, ¬ x.Issues i (Stmt.findRollback ref)) ∨
      ∃ ref, (memory i (x :: w.log)).claimed = some ref ∧ x.Issues i (Stmt.findRollback ref))
    (hpresent : (memory i (x :: w.log)).present →
      (memory i w.log).present ∧ (memory i (x :: w.log)).claimed = (memory i w.log).claimed ∨
        ∃ ref row, (memory i (x :: w.log)).claimed = some ref ∧ σ.rollbacks.row ref = some row)
    (hacked : ∀ k, (memory i (x :: w.log)).acked = some k → (memory i w.log).acked = some k ∨ acknowledges k x)
    (howed : ∀ ref row, (ref, row) ∈ (memory i (x :: w.log)).owed → (ref, row) ∈ (memory i w.log).owed ∨
      ∃ row', σ.rollbacks.row ref = some row' ∧ row'.transactionId = row.transactionId) :
    Told i ⟨σ, x :: w.log⟩ := by
  refine ⟨hfailed, fun ref hc => ?_, fun y hy ref hi => ?_, fun hp => ?_, fun k hk => ?_, fun ref row hmem => ?_⟩
  · rcases hclaimed with ⟨heq, -⟩ | ⟨ref', hc', hi⟩
    · obtain ⟨y, hy, hi⟩ := h.claimed ref (heq.symm.trans hc)
      exact ⟨y, List.mem_cons_of_mem _ hy, hi⟩
    · obtain rfl := Option.some.inj (hc'.symm.trans hc)
      exact ⟨x, List.mem_cons_self, hi⟩
  · rcases hclaimed with ⟨heq, hno⟩ | ⟨ref', hc', -⟩
    · change (memory i (x :: w.log)).claimed.isSome
      rw [heq]
      rcases List.mem_cons.1 hy with rfl | hy
      · exact absurd hi (hno ref)
      · exact h.looked y hy ref hi
    · change (memory i (x :: w.log)).claimed.isSome
      rw [hc']
      rfl
  · rcases hpresent hp with ⟨hp, heq⟩ | hrow
    · obtain ⟨ref, row, hc, hrow⟩ := h.present hp
      obtain ⟨row', hrow', -⟩ := hrows ref row hrow
      exact ⟨ref, row', heq.trans hc, hrow'⟩
    · exact hrow
  · rcases hacked k hk with hk | hx
    · exact acknowledged_cons (h.acked k hk)
    · exact ⟨x, List.mem_cons_self, hx⟩
  · rcases howed ref row hmem with hmem | hrow
    · obtain ⟨row', hrow', hT⟩ := h.owed ref row hmem
      obtain ⟨row'', hrow'', hT'⟩ := hrows ref row' hrow'
      exact ⟨row'', hrow'', hT'.trans hT⟩
    · exact hrow

lemma Told.kept {x : WalletEntry} {σ : State} (h : Told i w) (hm : memory i (x :: w.log) = memory i w.log)
    (hx : ∀ ref, ¬ x.Issues i (Stmt.findRollback ref))
    (hrows : ∀ ref row, w.state.rollbacks.row ref = some row →
      ∃ row', σ.rollbacks.row ref = some row' ∧ row'.transactionId = row.transactionId) :
    Told i ⟨σ, x :: w.log⟩ := by
  apply h.step hrows <;> rw [hm]
  · exact h.failed
  · exact .inl ⟨rfl, hx⟩
  · exact fun hp => .inl ⟨hp, rfl⟩
  · exact fun k hk => .inl hk
  · exact fun ref row hmem => .inl hmem

lemma memory_self {b a : State} {log : List WalletEntry} :
    memory i (.answered i s r b a :: log) = (memory i log).learn s r := foldBy_self

lemma Told.learn (h : Told i w) (hd : (memory i w.log).Due (calls i) s) (ho : asksStore s → o = .ok)
    (hs : exec P o i s w.state = some (r, σ')) : Told i (w.answer i s r σ') := by
  have hrows (ref : RollbackRef) (row : WalletRollback) (hrow : w.state.rollbacks.row ref = some row) :
      ∃ row', σ'.rollbacks.row ref = some row' ∧ row'.transactionId = row.transactionId :=
    rollback_kept hs hrow
  have hno (hfind : s.readsRollback = false) (ref : RollbackRef) :
      ¬ (Entry.answered i s r w.state σ' : WalletEntry).Issues i (Stmt.findRollback ref) := by
    rintro ⟨r', b, a, heq⟩
    obtain ⟨-, rfl, -⟩ := Entry.answered.inj heq
    cases hfind
  have hkept (hm : (memory i w.log).learn s r = memory i w.log) (hfind : s.readsRollback = false) :
      Told i (w.answer i s r σ') :=
    h.kept (x := .answered i s r w.state σ') (memory_self.trans hm) (hno hfind) hrows
  cases s with
  | findRollback ref =>
      obtain rfl := ho rfl
      obtain ⟨rfl, rfl⟩ := Prod.mk.inj (Option.some.inj hs)
      refine h.step hrows ?_ (.inr ⟨ref, ?_, _, _, _, rfl⟩) ?_ ?_ ?_ <;> rw [memory_self]
      · exact h.failed
      · rfl
      · intro hp
        right
        cases hrow : w.state.rollbacks.row ref with
        | some row => exact ⟨ref, row, rfl, hrow⟩
        | none =>
            have hboth : (memory i w.log).present ∧ (memory i w.log).claimed = some ref := by
              simpa [MoveMemory.learn, hrow] using hp
            obtain ⟨ref', row, hc, hrow'⟩ := h.present hboth.1
            obtain rfl := Option.some.inj (hboth.2.symm.trans hc)
            exact ⟨ref, row, rfl, hrow'⟩
      · exact fun k hk => .inl hk
      · exact fun ref row hmem => .inl hmem
  | createRollback ref row =>
      obtain rfl := ho rfl
      have hclaimed : (memory i w.log).claimed = some ref := by
        cases hc : calls i with
        | debit m =>
            rw [hc] at hd
            exact hd.2.2.1
        | credit m | drainPending l =>
            rw [hc] at hd
            exact hd.elim
      have hfound (row' : WalletRollback) (hrow : σ'.rollbacks.row ref = some row')
          (hm : (memory i w.log).learn (.createRollback ref row) r = { memory i w.log with present := true }) :
          Told i (w.answer i (.createRollback ref row) r σ') := by
        refine h.step hrows ?_ (.inl ⟨?_, hno rfl⟩) (fun _ => .inr ⟨ref, row', ?_, hrow⟩) ?_ ?_ <;>
          rw [memory_self, hm]
        · exact h.failed
        · exact hclaimed
        · exact fun k hk => .inl hk
        · exact fun ref row hmem => .inl hmem
      have hp : perform P i (.createRollback ref row) w.state = some (r, σ') := hs
      simp only [perform] at hp
      split_ifs at hp with hrow
      · obtain ⟨rfl, rfl⟩ := Prod.mk.inj (Option.some.inj hp)
        obtain ⟨row', hrow'⟩ := Option.isSome_iff_exists.1 hrow
        exact hfound row' hrow' rfl
      · obtain ⟨rfl, rfl⟩ := Prod.mk.inj (Option.some.inj hp)
        exact hfound row (by simp) rfl
  | dateNow =>
      cases r with
      | ok n => exact hkept rfl rfl
      | error e =>
          rcases exec_cases hs with hp | ⟨hfails, -⟩ | ⟨hview, -⟩
          · cases (Prod.mk.inj (Option.some.inj hp)).1
          · cases hfails
          · cases hview
  | operatorBet req =>
      refine h.step hrows ?_ (.inl ⟨?_, hno rfl⟩) ?_ ?_ ?_ <;> rw [memory_self]
      · exact h.failed
      · rfl
      · exact fun hp => .inl ⟨hp, rfl⟩
      · exact fun k hk => .inl hk
      · exact fun ref row hmem => .inl hmem
  | operatorRollback op k b =>
      cases r with
      | ok a =>
          refine h.step hrows ?_ (.inl ⟨?_, hno rfl⟩) ?_ ?_ ?_ <;> rw [memory_self]
          · exact h.failed
          · rfl
          · exact fun hp => .inl ⟨hp, rfl⟩
          · intro k' hk
            obtain rfl := Option.some.inj hk
            exact .inr (decide_eq_true rfl)
          · exact fun ref row hmem => .inl hmem
      | error e => exact hkept rfl rfl
  | findOwedRollbacks t take =>
      obtain rfl := ho rfl
      obtain ⟨rfl, rfl⟩ := Prod.mk.inj (Option.some.inj hs)
      refine h.step hrows ?_ (.inl ⟨?_, hno rfl⟩) ?_ ?_ ?_ <;> rw [memory_self]
      · exact h.failed
      · rfl
      · exact fun hp => .inl ⟨hp, rfl⟩
      · exact fun k hk => .inl hk
      · intro ref row hmem
        exact .inr ⟨row, (Table.mem_findMany.1 (List.mem_of_mem_take hmem)).1, rfl⟩
  | _ => exact hkept rfl rfl

end Told

section Invariant

lemma onOutbox_of_due {c : WalletCall} {m : MoveMemory} (hd : m.Due c s) : s.OnOutbox := by
  intro hw
  cases s with
  | createRollback ref row =>
      cases c with
      | debit mv => exact hd.2.2.2 hw
      | credit mv | drainPending l => exact hd.elim
  | updateRollback ref d =>
      cases c with
      | debit mv => exact hd.2 hw
      | credit mv => exact hd.elim
      | drainPending l => exact hd hw
  | updateRollbacks wh d =>
      cases c with
      | debit mv => exact hd.2.1 hw
      | credit mv => exact hd.elim
      | drainPending l => exact hd.1 hw
  | _ => cases hw

/-- Every row is for a debit and its transaction, and a confirmed one has been acknowledged. -/
structure StoreInv (calls : ℕ → WalletCall) (w : WalletWorld) : Prop where
  keyed : ∀ ref row, w.state.rollbacks.row ref = some row →
    ∃ i m, calls i = .debit m ∧ m.refId = ref.betId ∧ m.key = row.transactionId
  confirmed : ∀ ref row, w.state.rollbacks.row ref = some row → row.status = .confirmed →
    Acknowledged row.transactionId w.log
  told : ∀ i, Told i w
  attempts : ∀ x ∈ w.log, ∀ i s, x.Issues i s → Attempts (calls i) s
  about : ∀ x ∈ w.log, ∀ i ref, x.Issues i (Stmt.findRollback ref) → ∀ m, calls i = .debit m → ref.betId = m.refId

lemma acknowledged_of_confirm (hkeys : OneKey calls) (h : StoreInv calls w)
    (hd : (memory i w.log).Due (calls i) (.confirmRow ref)) {row : WalletRollback}
    (hrow : w.state.rollbacks.row ref = some row) : Acknowledged row.transactionId w.log := by
  cases hc : calls i with
  | debit m =>
      rw [hc] at hd
      obtain ⟨hbet, -, hacked⟩ := hd
      obtain ⟨j, m', hj, href, hkey⟩ := h.keyed ref row hrow
      have hone : m.key = m'.key := hkeys i j m m' hc hj (hbet.symm.trans href.symm)
      exact hkey ▸ hone ▸ (h.told i).acked m.key (hacked rfl)
  | credit m =>
      rw [hc] at hd
      exact hd.elim
  | drainPending l =>
      rw [hc] at hd
      obtain ⟨row₀, hmem, hacked⟩ := hd.2 rfl
      obtain ⟨row', hrow', hT⟩ := (h.told i).owed ref row₀ hmem
      obtain rfl := Option.some.inj (hrow'.symm.trans hrow)
      exact hT ▸ (h.told i).acked row₀.transactionId hacked

lemma attempts_of_due {c : WalletCall} {m : MoveMemory} (hd : m.Due c s) : Attempts c s := by
  cases c with
  | debit mv =>
      cases s with
      | operatorBet req => exact ⟨hd.1, hd.2.1⟩
      | _ => trivial
  | credit mv =>
      cases s with
      | resolveSession w => exact .inl ⟨w, rfl⟩
      | operatorWin req => exact .inr ⟨req, rfl, hd⟩
      | _ => exact hd.elim
  | drainPending l => trivial

lemma StoreInv.answer (hkeys : OneKey calls) (h : StoreInv calls w) (ho : asksStore s → o = .ok)
    (hd : (memory i w.log).Due (calls i) s) (hs : exec P o i s w.state = some (r, σ')) :
    StoreInv calls (w.answer i s r σ') where
  keyed := by
    intro ref row hrow
    rcases exec_rollback_row hs hrow with ⟨old, hold, hT⟩ | rfl
    · exact hT ▸ h.keyed ref old hold
    · cases hc : calls i with
      | debit m =>
          rw [hc] at hd
          exact ⟨i, m, hc, hd.1.symm, hd.2.1.symm⟩
      | credit m | drainPending l =>
          rw [hc] at hd
          exact hd.elim
  confirmed := by
    intro ref row hrow hst
    apply acknowledged_cons
    have hout := onOutbox_of_due hd
    rcases exec_rollback_row hs hrow with ⟨old, hold, hT⟩ | rfl
    · rw [← hT]
      rcases confirmed_exec hs hout ((confirmed_of_row hrow).2 hst) with hc | rfl
      · exact h.confirmed ref old hold ((confirmed_of_row hold).1 hc)
      · exact acknowledged_of_confirm hkeys h hd hold
    · cases hout rfl
      cases hst
  told := by
    intro j
    by_cases hij : i = j
    · subst hij
      exact (h.told i).learn hd ho hs
    · refine (h.told j).kept (x := .answered i s r w.state σ') (foldBy_answered hij) ?_ fun ref row => rollback_kept hs
      rintro ref ⟨r', b, a, heq⟩
      exact hij (Entry.answered.inj heq).1
  attempts := by
    intro x hx j t hi
    rcases List.mem_cons.1 hx with rfl | hx
    · obtain ⟨r', b, a, heq⟩ := hi
      obtain ⟨rfl, rfl, -⟩ := Entry.answered.inj heq
      exact attempts_of_due hd
    · exact h.attempts x hx j t hi
  about := by
    intro x hx j ref hi m hc
    rcases List.mem_cons.1 hx with rfl | hx
    · obtain ⟨r', b, a, heq⟩ := hi
      obtain ⟨rfl, rfl, -⟩ := Entry.answered.inj heq
      rw [hc] at hd
      exact hd.1
    · exact h.about x hx j ref hi m hc

lemma StoreInv.quiet {x : WalletEntry} {σ : State} (h : StoreInv calls w) (hrows : σ.rollbacks = w.state.rollbacks)
    (hm : ∀ i, memory i (x :: w.log) = memory i w.log) (hx : ∀ i s, ¬ x.Issues i s) :
    StoreInv calls ⟨σ, x :: w.log⟩ where
  keyed ref row hrow := h.keyed ref row (hrows ▸ hrow)
  confirmed ref row hrow hst := acknowledged_cons (h.confirmed ref row (hrows ▸ hrow) hst)
  told j := (h.told j).kept (hm j) (fun ref => hx j _) fun ref row hrow => ⟨row, hrows ▸ hrow, rfl⟩
  attempts := by
    intro y hy j s hi
    rcases List.mem_cons.1 hy with rfl | hy
    · exact absurd hi (hx j s)
    · exact h.attempts y hy j s hi
  about := by
    intro y hy j ref hi
    rcases List.mem_cons.1 hy with rfl | hy
    · exact absurd hi (hx j _)
    · exact h.about y hy j ref hi

end Invariant

section Runs

variable {c : WalletConfig}

lemma storeInv_initial (hσ : ∀ ref, σ.rollbacks.row ref = none) : StoreInv calls (⟨σ, []⟩ : WalletWorld) where
  keyed ref row hrow := by
    change σ.rollbacks.row ref = some row at hrow
    rw [hσ ref] at hrow
    cases hrow
  confirmed ref row hrow := by
    change σ.rollbacks.row ref = some row at hrow
    rw [hσ ref] at hrow
    cases hrow
  told i := ⟨rfl, nofun, by simp, nofun, nofun, nofun⟩
  attempts := by simp
  about := by simp

/-- Over an empty outbox, whatever else the wallet does: a debit that throws after a charge that may have been
applied is compensated if and only if the operator has not refused it in the end, and the charges of a call carry
its transaction and amount, while a credit does not issue anything else. -/
theorem compensated_unless_refused (hkeys : OneKey calls) (hσ : ∀ ref, σ.rollbacks.row ref = none)
    (h : (working calls).Reaches (walletSystem P) (Config.initial σ) c) :
    (∀ i m e, calls i = .debit m → c.threads[i]? = some (.live (.raise e)) →
      (memory i c.world.log).Ambiguous → (Compensated i m c.world ↔ ¬ (memory i c.world.log).Refused)) ∧
    ∀ x ∈ c.world.log, ∀ i s, x.Issues i s → Attempts (calls i) s := by
  have hgood := good_of_discipline (M := walletSystem P) (m := ({} : MoveMemory))
    (φ := fun n m => m.Due (calls n)) (Q := fun n r m => ∀ e, r = .error e → (calls n).Failed m)
    (R := working calls) (fun n e w a p hr he => by
      cases e with
      | tick ms => cases (Prod.mk.inj (Option.some.inj he)).2
      | call k =>
          obtain ⟨-, hp⟩ := Prod.mk.inj (Option.some.inj he)
          obtain rfl := Option.some.inj hp
          rw [← hr k rfl]
          exact moves_prog k)
    (fun i o s w r a (hw : StoreInv calls w) ho hd he => hw.answer hkeys ho hd he)
    (fun n e w a p hw _ he => by
      have ha : a.rollbacks = w.state.rollbacks := by
        cases e <;> obtain ⟨rfl, -⟩ := Prod.mk.inj (Option.some.inj he) <;> rfl
      exact hw.quiet (x := .moved n e w.state a) ha (fun _ => foldBy_moved) (by simp [Entry.Issues]))
    (fun i w hw _ => hw.quiet (x := .killed i w.state _) rfl (fun _ => foldBy_killed) (by simp [Entry.Issues]))
    (storeInv_initial hσ) h
  have hinv : StoreInv calls c.world := hgood.inv
  refine ⟨fun i m e hi hraise hamb => ⟨?_, fun hno => ?_⟩, hinv.attempts⟩
  · rintro ⟨⟨x, hx, ref, hfind⟩, -⟩ hrefused
    have hfails : (calls i).Failed (memory i c.world.log) := hgood.raised hraise _ rfl e rfl
    rw [hi] at hfails
    have hlooked := (hinv.told i).looked x hx ref hfind
    rw [hfails.refused hrefused] at hlooked
    cases hlooked
  · have hfails : (calls i).Failed (memory i c.world.log) := hgood.raised hraise _ rfl e rfl
    rw [hi] at hfails
    obtain ⟨-, hpresent⟩ := hfails.claimed (hinv.told i).failed hamb hno
    obtain ⟨ref, row, hclaimed, hrow⟩ := (hinv.told i).present hpresent
    obtain ⟨x, hx, hfind⟩ := (hinv.told i).claimed ref hclaimed
    refine ⟨⟨x, hx, ref, hfind⟩, ?_⟩
    obtain ⟨j, m', hj, href, hkey⟩ := hinv.keyed ref row hrow
    have hbet := hinv.about x hx i ref hfind m hi
    have hone : m.key = row.transactionId := (hkeys i j m m' hi hj (hbet.symm.trans href.symm)).trans hkey
    cases hst : row.status with
    | confirmed => exact .inl (hone ▸ hinv.confirmed ref row hrow hst)
    | pending => exact .inr ⟨ref, row, hbet, hrow, hone.symm, .inl hst⟩
    | draining => exact .inr ⟨ref, row, hbet, hrow, hone.symm, .inr hst⟩

open Scenario

def stake : Move := ⟨0, 100, .debit slot, 0, 3⟩

def answered (os : List Oracle) : List (Machine.Label WalletEvent Oracle) :=
  .env (.call (.debit stake)) :: os.map (.act 0)

lemma oneKey_stake : OneKey fun _ => .debit stake := by
  rintro i j m m' hm hm' -
  cases hm
  cases hm'
  rfl

/-- The charge is applied, and its answer times out; so does the rollback, and is owed. -/
theorem timed_out_compensated : ∃ c : WalletConfig,
    (working fun _ => .debit stake).Reaches (walletSystem (params true false)) (Config.initial (idle .betting)) c ∧
      c.threads[0]? = some (.live (.raise .walletUnavailable)) ∧
      (memory 0 c.world.log).Ambiguous ∧ Compensated 0 stake c.world := by
  have hrun : (walletSystem (params true false)).run (Config.initial (idle .betting))
      (answered [.ok, .timedOut true, .ok, .ok, .ok, .timedOut false, .ok]) = some _ := rfl
  have hreach := Rule.reaches_of_run (R := working fun _ => .debit stake) (by decide) hrun
  exact ⟨_, hreach, rfl, by decide,
    ((compensated_unless_refused oneKey_stake (fun _ => rfl) hreach).1 0 stake _ rfl rfl (by decide)).2 nofun⟩

/-- The charge is applied, but the operator fails to say so; the retry finds the money gone, and nothing is
rolled back. -/
theorem refused_retry_keeps_the_charge : OneKey (fun _ => .debit stake) ∧ ∃ c : WalletConfig,
    (working fun _ => .debit stake).Reaches (walletSystem (params true false)) (Config.initial (idle .betting)) c ∧
      c.threads[0]? = some (.live (.raise .insufficientBalance)) ∧
      (memory 0 c.world.log).Ambiguous ∧ c.world.state.operatorBalance 0 = 900 ∧
      ¬ Acknowledged stake.key c.world.log ∧ ¬ Owed stake.key stake.refId c.world.state := by
  have hrun : (walletSystem (params true false)).run (Config.initial (idle .betting))
      (answered [.ok, .unacked, .refused]) = some _ := rfl
  refine ⟨oneKey_stake, _, Rule.reaches_of_run (R := working fun _ => .debit stake) (by decide) hrun, rfl, by decide,
    rfl, by decide, ?_⟩
  rintro ⟨ref, row, -, hrow, -⟩
  cases hrow

end Runs

end VaultRun.Safety.CompensatedDebits
