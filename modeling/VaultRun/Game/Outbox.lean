import VaultRun.Concurrency.Lease
import VaultRun.Game.Lifecycle

/-!
The outbox of rollbacks: each row is a leased cell, and this is what a call knows when it issues a
statement that touches one.
-/

namespace VaultRun.Game

open VaultRun.Concurrency VaultRun.Data Program WalletRollbackService SeamlessOperatorWallet

namespace Stmt

@[reducible] def outboxRef : Stmt → Option RollbackRef
  | findRollback ref | createRollback ref _ | updateRollback ref _ => some ref
  | updateRollbacks w _ => some w.ref
  | _ => none

@[reducible] def emits : Stmt → Bool
  | operatorRollback _ _ _ => true
  | _ => false

@[reducible] def returnsRow : Stmt → Option RollbackRef
  | updateRollbacks w d => if d.status = some .draining then none else some w.ref
  | updateRollback ref d => if d.status.isSome then some ref else none
  | _ => none

abbrev leaseRow (ref : RollbackRef) (pinned : RollbackStatus × Option ℕ) (ends : ℕ) : Stmt :=
  .updateRollbacks { ref := ref, pinned := some pinned }
    { status := some .draining, leaseUntil := some (some ends) }

abbrev confirmRow (ref : RollbackRef) : Stmt :=
  .updateRollbacks { ref := ref } { status := some .confirmed, leaseUntil := some none }

abbrev releaseRow (ref : RollbackRef) : Stmt :=
  .updateRollbacks { ref := ref } { status := some .pending, leaseUntil := some none }

inductive WritesRow : Stmt → Prop
  | insert (ref : RollbackRef) (k : Key) (amount : Option ℤ) (ends : ℕ) :
      WritesRow (.createRollback ref ⟨k, amount, .draining, 0, some ends⟩)
  | lease (ref : RollbackRef) (pinned : RollbackStatus × Option ℕ) (ends : ℕ) :
      WritesRow (.leaseRow ref pinned ends)
  | confirm (ref : RollbackRef) : WritesRow (.confirmRow ref)
  | release (ref : RollbackRef) : WritesRow (.releaseRow ref)
  | bump (ref : RollbackRef) : WritesRow (.updateRollback ref { attempts := (· + 1) })
  | fail (ref : RollbackRef) (n : ℕ) :
      WritesRow (.updateRollback ref
        { status := some .pending, leaseUntil := some none, attempts := fun _ => n })

def OnOutbox (s : Stmt) : Prop := s.writesRollbacks → s.WritesRow

end Stmt

/-- What a call has taken: the row, the end of its lease, and whether the operator has accepted the
rollback since. -/
structure Hold where
  ref : RollbackRef
  ends : ℕ
  accepted : Option Bool
  deriving DecidableEq

def holdAfter (h : Option Hold) : (s : Stmt) → game.Reply s → Option Hold
  | .createRollback ref row, r =>
      match r with
      | .ok _ => row.leaseUntil.map fun ends => ⟨ref, ends, none⟩
      | .error _ => h
  | .updateRollbacks w d, r =>
      match d.status with
      | none => h
      | some .draining =>
          match r with
          | .ok 1 => d.leaseUntil.join.map fun ends => ⟨w.ref, ends, none⟩
          | _ => h
      | some _ => none
  | .updateRollback _ d, _ => if d.status.isSome then none else h
  | .operatorRollback _ _ _, r => h.map fun h => { h with accepted := some r.isOk }
  | _, _ => h

/-- What call `i` holds, between acquisition and release. -/
def holds (i : ℕ) (log : List GameEntry) : Option Hold := foldBy holdAfter none i log

def refAfter (ref : Option RollbackRef) (s : Stmt) (_ : game.Reply s) : Option RollbackRef :=
  s.outboxRef.or ref

def refOf (i : ℕ) (log : List GameEntry) : Option RollbackRef := foldBy refAfter none i log

def cellOf : Option WalletRollback → Lease.Cell ℕ
  | none => .free
  | some row =>
      match row.status with
      | .pending => .free
      | .draining => row.leaseUntil.elim .free .held
      | .confirmed => .done

def endsOf (ref : RollbackRef) (h : Option Hold) : Option ℕ :=
  h.bind fun h => if h.ref = ref then some h.ends else none

@[simp] lemma endsOf_self {ref : RollbackRef} {ends : ℕ} {a : Option Bool} :
    endsOf ref (some ⟨ref, ends, a⟩) = some ends := if_pos rfl

@[simp] lemma endsOf_ne {ref ref' : RollbackRef} {ends : ℕ} {a : Option Bool} (h : ref' ≠ ref) :
    endsOf ref (some ⟨ref', ends, a⟩) = none := if_neg h

def leaseOf (ref : RollbackRef) (w : GameWorld) : Lease.State ℕ ℕ where
  cell := cellOf (w.state.rollbacks.row ref)
  holder i := endsOf ref (holds i w.log)
  now := w.state.now

def Confirmed (ref : RollbackRef) (σ : State) : Prop :=
  (σ.rollbacks.row ref).any (·.status = .confirmed)

instance (ref : RollbackRef) (σ : State) : Decidable (Confirmed ref σ) :=
  inferInstanceAs (Decidable (_ = true))

lemma cellOf_done {row : Option WalletRollback} : cellOf row = .done ↔ row.any (·.status = .confirmed) := by
  cases row with
  | none => simp [cellOf]
  | some row =>
      cases hst : row.status with
      | draining => cases hl : row.leaseUntil <;> simp [cellOf, hst, hl]
      | pending | confirmed => simp [cellOf, hst]

lemma leaseOf_done {ref : RollbackRef} {w : GameWorld} :
    (leaseOf ref w).cell = .done ↔ Confirmed ref w.state := cellOf_done

variable {P : Params} {C : Contract (system P)} {i j : ℕ} {w w' : GameWorld} {s : Stmt}
  {r : game.Reply s} {o : Oracle} {σ σ' : State} {ref : RollbackRef}

section Rows

lemma updateRollbacks_row {wh : RollbackWhere} {d : RollbackData} :
    (σ.updateRollbacks wh d).rollbacks.row ref =
      (σ.rollbacks.row ref).map fun x => if wh.holds ref x then d.apply x else x := rfl

lemma exec_updateRollbacks {wh : RollbackWhere} {d : RollbackData} {r : Except Err ℕ}
    (h : exec P o i (.updateRollbacks wh d) σ = some (r, σ')) :
    (r = .ok (σ.rollbacks.count wh.holds) ∧ σ' = σ.updateRollbacks wh d) ∨
      ∃ e, r = .error e ∧ (σ' = σ ∨ σ' = σ.updateRollbacks wh d) := by
  rcases exec_cases h with hp | ⟨-, e, rfl, rfl | ⟨r', hp⟩⟩ | ⟨hv, -⟩
  · obtain ⟨rfl, rfl⟩ := Prod.mk.inj (Option.some.inj hp)
    exact .inl ⟨rfl, rfl⟩
  · exact .inr ⟨e, rfl, .inl rfl⟩
  · obtain ⟨rfl, rfl⟩ := Prod.mk.inj (Option.some.inj hp)
    exact .inr ⟨e, rfl, .inr rfl⟩
  · cases hv

lemma exec_updateRollback {d : RollbackData} {r : Except Err Unit}
    (h : exec P o i (.updateRollback ref d) σ = some (r, σ')) :
    (σ' = σ ∧ ∃ e, r = .error e) ∨ σ' = σ.updateRollbacks { ref := ref } d := by
  have hperform {r} (hp : perform P i (.updateRollback ref d) σ = some (r, σ')) :
      (σ' = σ ∧ ∃ e, r = .error e) ∨ σ' = σ.updateRollbacks { ref := ref } d := by
    simp only [perform] at hp
    split_ifs at hp <;> obtain ⟨rfl, rfl⟩ := Prod.mk.inj (Option.some.inj hp)
    · exact .inr rfl
    · exact .inl ⟨rfl, _, rfl⟩
  rcases exec_cases h with hp | ⟨-, e, rfl, rfl | ⟨r', hp⟩⟩ | ⟨hv, -⟩
  · exact hperform hp
  · exact .inl ⟨rfl, e, rfl⟩
  · rcases hperform hp with ⟨rfl, -⟩ | hσ
    · exact .inl ⟨rfl, e, rfl⟩
    · exact .inr hσ
  · cases hv

lemma exec_createRollback {row : WalletRollback} {r : Except Err Unit}
    (h : exec P o i (.createRollback ref row) σ = some (r, σ')) :
    (σ' = σ ∧ ∃ e, r = .error e) ∨
      (σ.rollbacks.row ref = none ∧ σ' = { σ with rollbacks := σ.rollbacks.insert ref row }) := by
  have hperform {r} (hp : perform P i (.createRollback ref row) σ = some (r, σ')) :
      (σ' = σ ∧ ∃ e, r = .error e) ∨
        (σ.rollbacks.row ref = none ∧ σ' = { σ with rollbacks := σ.rollbacks.insert ref row }) := by
    simp only [perform] at hp
    split_ifs at hp with hrow <;> obtain ⟨rfl, rfl⟩ := Prod.mk.inj (Option.some.inj hp)
    · exact .inl ⟨rfl, _, rfl⟩
    · exact .inr ⟨by simpa using hrow, rfl⟩
  rcases exec_cases h with hp | ⟨-, e, rfl, rfl | ⟨r', hp⟩⟩ | ⟨hv, -⟩
  · exact hperform hp
  · exact .inl ⟨rfl, e, rfl⟩
  · rcases hperform hp with ⟨rfl, -⟩ | hσ
    · exact .inl ⟨rfl, e, rfl⟩
    · exact .inr hσ
  · cases hv

end Rows

section Lease

open Function

def TakesOwed (s : Stmt) (σ : State) : Prop :=
  ∀ ref pinned ends, s = .leaseRow ref pinned ends →
    pinned.1 ≠ .confirmed ∧ (pinned.1 = .draining → pinned.2.all (· ≤ σ.now))

/-- A failure is written by a live owner of the row, and a row is confirmed while nobody else owns it. -/
def WritesInTime (i : ℕ) (w : GameWorld) : Stmt → Prop
  | .updateRollbacks wh d =>
      (d.status = some .pending → (leaseOf wh.ref w).Live i) ∧
        (d.status = some .confirmed → ∀ j, (leaseOf wh.ref w).Live j → j = i)
  | .updateRollback ref d => d.status = some .pending → (leaseOf ref w).Live i
  | _ => True

instance (s : Lease.State ℕ ℕ) (i : ℕ) : Decidable (s.Live i) :=
  decidable_of_iff ((s.holder i).any (s.now < ·)) (by simp [Lease.State.Live, Option.any_eq_true])

lemma issues_of_holds {log : List GameEntry} {h : Hold} (hh : holds i log = some h) :
    ∃ x ∈ log, ∃ s, x.Issues i s := by
  by_contra hnone
  have hidle : holds i log = none := foldBy_of_absent fun x hx s hs => hnone ⟨x, hx, s, hs⟩
  rw [hidle] at hh
  cases hh

lemma live_alone : (∀ x ∈ w.log, (leaseOf ref w).Live x.call → x.call = i) ↔
    ∀ j, (leaseOf ref w).Live j → j = i := by
  refine ⟨fun h j hj => ?_, fun h x _ => h x.call⟩
  obtain ⟨t, ht, -⟩ := id hj
  obtain ⟨held, hheld, -⟩ := Option.bind_eq_some_iff.1 ht
  obtain ⟨x, hx, s, r, b, a, rfl⟩ := issues_of_holds hheld
  exact h _ hx hj

instance (ref : RollbackRef) (w : GameWorld) (i : ℕ) :
    Decidable (∀ j, (leaseOf ref w).Live j → j = i) := decidable_of_iff _ live_alone

instance (i : ℕ) (w : GameWorld) (s : Stmt) : Decidable (WritesInTime i w s) := by
  unfold WritesInTime
  split <;> infer_instance

lemma leaseOf_answer (h : exec P o i s w.state = some (r, σ')) :
    leaseOf ref (w.answer i s r σ') =
      ⟨cellOf (σ'.rollbacks.row ref),
        update (leaseOf ref w).holder i (endsOf ref (holdAfter (holds i w.log) s r)), w.state.now⟩ := by
  have hholder : (leaseOf ref (w.answer i s r σ')).holder =
      update (leaseOf ref w).holder i (endsOf ref (holdAfter (holds i w.log) s r)) := by
    funext j
    by_cases hj : j = i
    · subst hj
      simp [leaseOf, holds]
    · simp [leaseOf, holds, hj, Ne.symm hj]
  rw [← hholder, ← exec_now h]
  rfl

lemma leaseOf_kept (h : exec P o i s w.state = some (r, σ'))
    (hcell : cellOf (σ'.rollbacks.row ref) = cellOf (w.state.rollbacks.row ref))
    (hhold : endsOf ref (holdAfter (holds i w.log) s r) = endsOf ref (holds i w.log)) :
    leaseOf ref (w.answer i s r σ') = leaseOf ref w := by
  rw [leaseOf_answer h, hcell, hhold]
  change Lease.State.mk _ (update _ i ((leaseOf ref w).holder i)) _ = _
  rw [update_eq_self]
  rfl

lemma leaseOf_off (h : exec P o i s w.state = some (r, σ')) (hs : s.writesRollbacks = false) :
    leaseOf ref (w.answer i s r σ') = leaseOf ref w := by
  refine leaseOf_kept h (by rw [exec_rollbacks h hs]) ?_
  cases s <;> simp only [Stmt.writesRollbacks, Bool.true_eq_false] at hs <;>
    simp [holdAfter, endsOf, Option.bind_map]

lemma leaseOf_moves (h : C.Moves w w') : leaseOf ref w' = (leaseOf ref w).wait w'.state.now := by
  have hholder : (leaseOf ref w').holder = (leaseOf ref w).holder := by
    funext j
    change endsOf ref (holds j w'.log) = endsOf ref (holds j w.log)
    rw [holds, h.foldBy]
    rfl
  have hcell : (leaseOf ref w').cell = (leaseOf ref w).cell := by
    change cellOf (w'.state.rollbacks.row ref) = cellOf (w.state.rollbacks.row ref)
    rw [(moves_tables h).rollbacks]
  rw [Lease.State.wait, ← hholder, ← hcell]
  rfl

lemma exclusive_moves (h : C.Moves w w') (he : Lease.Exclusive (leaseOf ref w)) :
    Lease.Exclusive (leaseOf ref w') := by
  rw [leaseOf_moves h]
  exact he.wait (moves_now h)

lemma exclusive_initial (σ : State) (ref : RollbackRef) : Lease.Exclusive (leaseOf ref ⟨σ, []⟩) := by
  constructor
  · intro i t ht
    cases ht
  · rintro i j ⟨t, ht, -⟩
    cases ht

lemma updateRollbacks_ne {wh : RollbackWhere} {d : RollbackData} (hne : ref ≠ wh.ref) :
    (σ.updateRollbacks wh d).rollbacks.row ref = σ.rollbacks.row ref := by
  simp [updateRollbacks_row, RollbackWhere.holds, hne.symm]

variable {ref' : RollbackRef} {pinned : RollbackStatus × Option ℕ} {ends : ℕ}

def Pinned (ref : RollbackRef) (pinned : RollbackStatus × Option ℕ) (σ : State) : Prop :=
  ∃ row, σ.rollbacks.row ref = some row ∧ row.status = pinned.1 ∧
    (pinned.1 = .draining → row.leaseUntil = pinned.2)

lemma pinned_iff {row : WalletRollback} :
    RollbackWhere.holds { ref := ref, pinned := some pinned } ref' row ↔
      ref' = ref ∧ row.status = pinned.1 ∧ (pinned.1 = .draining → row.leaseUntil = pinned.2) := by
  simp only [RollbackWhere.holds, Option.all_some, Bool.and_eq_true, Bool.or_eq_true,
    decide_eq_true_eq, ne_eq, eq_comm (a := ref')]
  tauto

lemma Pinned.open (h : Pinned ref pinned w.state) (howed : TakesOwed (.leaseRow ref pinned ends) w.state) :
    (leaseOf ref w).cell.Open w.state.now := by
  obtain ⟨row, hrow, hst, hlease⟩ := h
  obtain ⟨hne, hdue⟩ := howed ref pinned ends rfl
  cases hp : pinned.1 with
  | confirmed => exact absurd hp hne
  | pending => simp [leaseOf, hrow, cellOf, hst, hp, Lease.Cell.Open]
  | draining =>
      have hend := hdue hp
      cases hl : row.leaseUntil with
      | none => simp [leaseOf, hrow, cellOf, hst, hp, hl, Lease.Cell.Open]
      | some t =>
          rw [← hlease hp, hl] at hend
          simpa [leaseOf, hrow, cellOf, hst, hp, hl, Lease.Cell.Open] using hend

lemma cellOf_bump : cellOf ((σ.updateRollbacks { ref := ref' } { attempts := (· + 1) }).rollbacks.row ref) =
    cellOf (σ.rollbacks.row ref) := by
  rw [updateRollbacks_row]
  cases hrow : σ.rollbacks.row ref with
  | none => rfl
  | some row =>
      rw [Option.map_some]
      split <;> rfl

lemma cellOf_confirmed (h : cellOf (σ.rollbacks.row ref) = .held ends) :
    cellOf ((σ.updateRollbacks { ref := ref }
      { status := some .confirmed, leaseUntil := some none }).rollbacks.row ref) = .done := by
  rw [updateRollbacks_row]
  cases hrow : σ.rollbacks.row ref with
  | none => simp [hrow, cellOf] at h
  | some row => simp [RollbackWhere.holds, RollbackData.apply, cellOf]

lemma cellOf_pending {f : ℕ → ℕ} : cellOf ((σ.updateRollbacks { ref := ref }
    { status := some .pending, leaseUntil := some none, attempts := f }).rollbacks.row ref) = .free := by
  rw [updateRollbacks_row]
  cases hrow : σ.rollbacks.row ref with
  | none => rfl
  | some row => simp [RollbackWhere.holds, RollbackData.apply, cellOf]

lemma pinned_row (h : Pinned ref pinned σ) :
    cellOf ((σ.updateRollbacks { ref := ref, pinned := some pinned }
      { status := some .draining, leaseUntil := some (some ends) }).rollbacks.row ref) = .held ends := by
  obtain ⟨row, hrow, hst, hlease⟩ := h
  have hholds : RollbackWhere.holds { ref := ref, pinned := some pinned } ref row :=
    pinned_iff.2 ⟨rfl, hst, hlease⟩
  simp [updateRollbacks_row, hrow, hholds, RollbackData.apply, cellOf]

lemma unpinned_row (d : RollbackData) (h : ¬ Pinned ref pinned σ) :
    (σ.updateRollbacks { ref := ref, pinned := some pinned } d).rollbacks.row ref' =
      σ.rollbacks.row ref' := by
  cases hrow : σ.rollbacks.row ref' with
  | none => simp [updateRollbacks_row, hrow]
  | some row =>
      have hnot : ¬ RollbackWhere.holds { ref := ref, pinned := some pinned } ref' row := by
        rw [pinned_iff]
        rintro ⟨rfl, hst, hlease⟩
        exact h ⟨row, hrow, hst, hlease⟩
      simp [updateRollbacks_row, hrow, hnot]

lemma count_pinned :
    σ.rollbacks.count (RollbackWhere.holds { ref := ref, pinned := some pinned }) = 1 ↔
      Pinned ref pinned σ := by
  have hle : σ.rollbacks.count (RollbackWhere.holds { ref := ref, pinned := some pinned }) ≤ 1 :=
    Table.count_le_one (k := ref) fun j row hj => (pinned_iff.1 hj).1
  have hne : σ.rollbacks.count (RollbackWhere.holds { ref := ref, pinned := some pinned }) ≠ 0 ↔
      Pinned ref pinned σ := by
    rw [Table.count_ne_zero]
    constructor
    · rintro ⟨k, row, hrow, hk⟩
      obtain ⟨rfl, hst, hlease⟩ := pinned_iff.1 hk
      exact ⟨row, hrow, hst, hlease⟩
    · rintro ⟨row, hrow, hst, hlease⟩
      exact ⟨ref, row, hrow, pinned_iff.2 ⟨rfl, hst, hlease⟩⟩
  rw [← hne]
  omega

lemma holdAfter_returned {h : Option Hold} (hs : s.WritesRow) (hret : s.returnsRow = some ref') :
    holdAfter h s r = none := by
  cases hs <;> simp_all [holdAfter]

/-- A write of a row that gives it back ends the hold of its caller, whatever becomes of the row. -/
lemma leaseOf_returned {ref' : RollbackRef} (h : exec P o i s w.state = some (r, σ'))
    (hs : s.WritesRow) (hret : s.returnsRow = some ref') :
    (∃ c, leaseOf ref' (w.answer i s r σ') = { (leaseOf ref' w).drop i with cell := c }) ∧
      ∀ ref ≠ ref', leaseOf ref (w.answer i s r σ') = (leaseOf ref w).drop i := by
  have hhold : holdAfter (holds i w.log) s r = none := holdAfter_returned hs hret
  have hrow (ref : RollbackRef) (hne : ref ≠ ref') :
      σ'.rollbacks.row ref = w.state.rollbacks.row ref := by
    cases hs with
    | insert | lease | bump => simp at hret
    | confirm | release =>
        obtain rfl : _ = ref' := by simpa using hret
        rcases exec_updateRollbacks h with ⟨-, rfl⟩ | ⟨e, -, rfl | rfl⟩
        · exact updateRollbacks_ne hne
        · rfl
        · exact updateRollbacks_ne hne
    | fail =>
        obtain rfl : _ = ref' := by simpa using hret
        rcases exec_updateRollback h with ⟨rfl, -⟩ | rfl
        · rfl
        · exact updateRollbacks_ne hne
  refine ⟨⟨cellOf (σ'.rollbacks.row ref'), ?_⟩, fun ref hne => ?_⟩
  · rw [leaseOf_answer h, hhold]
    rfl
  · rw [leaseOf_answer h, hhold, hrow ref hne]
    rfl

/-- A row that has been taken is held by its taker, if the taker comes to know of it. -/
lemma exclusive_taken (ref' : RollbackRef) (ends : ℕ) (h : exec P o i s w.state = some (r, σ'))
    (he : ∀ ref, Lease.Exclusive (leaseOf ref w)) (hopen : (leaseOf ref' w).cell.Open w.state.now)
    (hcell : cellOf (σ'.rollbacks.row ref') = .held ends)
    (hrow : ∀ ref ≠ ref', σ'.rollbacks.row ref = w.state.rollbacks.row ref)
    (hhold : holdAfter (holds i w.log) s r = some ⟨ref', ends, none⟩ ∨
      holdAfter (holds i w.log) s r = holds i w.log) (ref : RollbackRef) :
    Lease.Exclusive (leaseOf ref (w.answer i s r σ')) := by
  rw [leaseOf_answer h]
  by_cases hne : ref = ref'
  · subst hne
    rw [hcell]
    rcases hhold with hhold | hhold <;> rw [hhold]
    · rw [endsOf_self]
      exact (he ref).acquire hopen i ends
    · change Lease.Exclusive ⟨_, update _ i ((leaseOf ref w).holder i), _⟩
      rw [update_eq_self]
      exact (he ref).take hopen ends
  · rw [hrow ref hne]
    rcases hhold with hhold | hhold <;> rw [hhold]
    · rw [endsOf_ne (Ne.symm hne)]
      exact (he ref).drop i
    · change Lease.Exclusive ⟨_, update _ i ((leaseOf ref w).holder i), _⟩
      rw [update_eq_self]
      exact he ref

lemma exclusive_returned {ref' : RollbackRef} (h : exec P o i s w.state = some (r, σ'))
    (hs : s.WritesRow) (hret : s.returnsRow = some ref')
    (he : ∀ ref, Lease.Exclusive (leaseOf ref w)) (halone : ∀ j, (leaseOf ref' w).Live j → j = i)
    (ref : RollbackRef) : Lease.Exclusive (leaseOf ref (w.answer i s r σ')) := by
  obtain ⟨⟨c, hself⟩, hother⟩ := leaseOf_returned h hs hret
  by_cases hne : ref = ref'
  · subst hne
    rw [hself]
    exact .of_alone halone
  · rw [hother ref hne]
    exact (he ref).drop i

/-- Owners that write in time exclude each other. -/
lemma exclusive_answer (h : exec P o i s w.state = some (r, σ')) (hs : s.OnOutbox)
    (howed : TakesOwed s w.state) (htime : WritesInTime i w s)
    (he : ∀ ref, Lease.Exclusive (leaseOf ref w)) (ref : RollbackRef) :
    Lease.Exclusive (leaseOf ref (w.answer i s r σ')) := by
  cases hw : s.writesRollbacks with
  | false =>
      rw [leaseOf_off h hw]
      exact he ref
  | true =>
      cases hs hw with
      | insert ref' k amount ends =>
          rcases exec_createRollback h with ⟨hσ, e, rfl⟩ | ⟨hnone, rfl⟩
          · rw [leaseOf_kept h (by rw [hσ]) rfl]
            exact he ref
          · refine exclusive_taken ref' ends h he ?_ ?_ (fun ref hne => ?_) ?_ ref
            · simp [leaseOf, hnone, cellOf, Lease.Cell.Open]
            · simp [cellOf]
            · simp [hne]
            · cases r with
              | ok u => exact .inl rfl
              | error e => exact .inr rfl
      | lease ref' pinned ends =>
          by_cases hp : Pinned ref' pinned w.state
          · have hcount := count_pinned.2 hp
            rcases exec_updateRollbacks h with ⟨rfl, rfl⟩ | ⟨e, rfl, rfl | rfl⟩
            · refine exclusive_taken ref' ends h he (hp.open howed) (pinned_row hp)
                (fun ref hne => updateRollbacks_ne hne) (.inl ?_) ref
              simp [holdAfter, hcount]
            · rw [leaseOf_kept h rfl rfl]
              exact he ref
            · exact exclusive_taken ref' ends h he (hp.open howed) (pinned_row hp)
                (fun ref hne => updateRollbacks_ne hne) (.inr rfl) ref
          · have hcount : w.state.rollbacks.count
                (RollbackWhere.holds { ref := ref', pinned := some pinned }) ≠ 1 :=
              fun hone => hp (count_pinned.1 hone)
            rw [leaseOf_kept h]
            · exact he ref
            · rcases exec_updateRollbacks h with ⟨-, rfl⟩ | ⟨e, -, rfl | rfl⟩
              · rw [unpinned_row _ hp]
              · rfl
              · rw [unpinned_row _ hp]
            · rcases exec_updateRollbacks h with ⟨rfl, -⟩ | ⟨e, rfl, -⟩
              · simp only [holdAfter]
                split
                · rename_i heq
                  exact absurd (Except.ok.inj heq) hcount
                · rfl
              · rfl
      | bump ref' =>
          have hcell : cellOf (σ'.rollbacks.row ref) = cellOf (w.state.rollbacks.row ref) := by
            rcases exec_updateRollback h with ⟨rfl, -⟩ | rfl
            · rfl
            · exact cellOf_bump
          rw [leaseOf_kept h hcell rfl]
          exact he ref
      | confirm ref' => exact exclusive_returned h (hs hw) rfl he (htime.2 rfl) ref
      | release ref' =>
          exact exclusive_returned h (hs hw) rfl he
            (fun j hj => (he ref').unique j i hj (htime.1 rfl)) ref
      | fail ref' =>
          exact exclusive_returned h (hs hw) rfl he
            (fun j hj => (he ref').unique j i hj (htime rfl)) ref

lemma confirmed_of_row {row : WalletRollback} (hrow : σ.rollbacks.row ref = some row) :
    Confirmed ref σ ↔ row.status = .confirmed := by
  simp [Confirmed, hrow]

lemma Confirmed.updateRollbacks (h : Confirmed ref σ) (wh : RollbackWhere) (d : RollbackData)
    (hd : ∀ row, σ.rollbacks.row ref = some row → wh.holds ref row → (d.apply row).status = .confirmed) :
    Confirmed ref (σ.updateRollbacks wh d) := by
  obtain ⟨row, hrow, hst⟩ := (Option.any_eq_true _ _).1 h
  have hst : row.status = .confirmed := by simpa using hst
  by_cases hw : wh.holds ref row
  · have hrow' : (σ.updateRollbacks wh d).rollbacks.row ref = some (d.apply row) := by
      simp [updateRollbacks_row, hrow, hw]
    exact (confirmed_of_row hrow').2 (hd row hrow hw)
  · have hrow' : (σ.updateRollbacks wh d).rollbacks.row ref = some row := by
      simp [updateRollbacks_row, hrow, hw]
    exact (confirmed_of_row hrow').2 hst

lemma confirmed_of_updateRollbacks {wh : RollbackWhere} {d : RollbackData}
    (h : Confirmed ref (σ.updateRollbacks wh d)) :
    Confirmed ref σ ∨ wh.ref = ref ∧ d.status = some .confirmed := by
  cases hrow : σ.rollbacks.row ref with
  | none => simp [Confirmed, updateRollbacks_row, hrow] at h
  | some row =>
      by_cases hw : wh.holds ref row
      · have hrow' : (σ.updateRollbacks wh d).rollbacks.row ref = some (d.apply row) := by
          simp [updateRollbacks_row, hrow, hw]
        have hst := (confirmed_of_row hrow').1 h
        have href : wh.ref = ref := by
          simp only [RollbackWhere.holds, Bool.and_eq_true, decide_eq_true_eq] at hw
          exact hw.1
        cases hd : d.status with
        | none => exact .inl ((confirmed_of_row hrow).2 (by simpa [RollbackData.apply, hd] using hst))
        | some st => exact .inr ⟨href, by simpa [RollbackData.apply, hd] using hst⟩
      · have hrow' : (σ.updateRollbacks wh d).rollbacks.row ref = some row := by
          simp [updateRollbacks_row, hrow, hw]
        exact .inl ((confirmed_of_row hrow).2 ((confirmed_of_row hrow').1 h))

lemma confirmed_exec (h : exec P o i s σ = some (r, σ')) (hs : s.OnOutbox) (hc : Confirmed ref σ') :
    Confirmed ref σ ∨ s = .confirmRow ref := by
  cases hw : s.writesRollbacks with
  | false => exact .inl (by rwa [Confirmed, ← exec_rollbacks h hw])
  | true =>
      cases hs hw with
      | insert ref' k amount ends =>
          rcases exec_createRollback h with ⟨rfl, -⟩ | ⟨-, rfl⟩
          · exact .inl hc
          · left
            by_cases hne : ref = ref'
            · simp [Confirmed, hne] at hc
            · simpa [Confirmed, hne] using hc
      | lease ref' pinned ends =>
          rcases exec_updateRollbacks h with ⟨-, rfl⟩ | ⟨e, -, rfl | rfl⟩
          · exact .inl ((confirmed_of_updateRollbacks hc).resolve_right (by simp))
          · exact .inl hc
          · exact .inl ((confirmed_of_updateRollbacks hc).resolve_right (by simp))
      | confirm ref' =>
          have hrow (hu : Confirmed ref (σ.updateRollbacks { ref := ref' }
              { status := some .confirmed, leaseUntil := some none })) :
              Confirmed ref σ ∨ Stmt.confirmRow ref' = .confirmRow ref :=
            (confirmed_of_updateRollbacks hu).imp_right fun h => by rw [← h.1]
          rcases exec_updateRollbacks h with ⟨-, rfl⟩ | ⟨e, -, rfl | rfl⟩
          · exact hrow hc
          · exact .inl hc
          · exact hrow hc
      | release ref' =>
          rcases exec_updateRollbacks h with ⟨-, rfl⟩ | ⟨e, -, rfl | rfl⟩
          · exact .inl ((confirmed_of_updateRollbacks hc).resolve_right (by simp))
          · exact .inl hc
          · exact .inl ((confirmed_of_updateRollbacks hc).resolve_right (by simp))
      | bump ref' | fail ref' n =>
          rcases exec_updateRollback h with ⟨rfl, -⟩ | rfl
          · exact .inl hc
          · exact .inl ((confirmed_of_updateRollbacks hc).resolve_right (by simp))

/-- Owners that write in time leave a confirmed row confirmed. -/
lemma confirmed_answer (h : exec P o i s w.state = some (r, σ')) (hs : s.OnOutbox)
    (howed : TakesOwed s w.state) (htime : WritesInTime i w s)
    (he : ∀ ref, Lease.Exclusive (leaseOf ref w)) (hc : Confirmed ref w.state) : Confirmed ref σ' := by
  have hlive {j : ℕ} {ref' : RollbackRef} (hj : (leaseOf ref' w).Live j) : ref ≠ ref' := by
    rintro rfl
    exact (he ref).not_done hj (leaseOf_done.2 hc)
  cases hw : s.writesRollbacks with
  | false =>
      rw [Confirmed, exec_rollbacks h hw]
      exact hc
  | true =>
      cases hs hw with
      | insert ref' k amount ends =>
          rcases exec_createRollback h with ⟨rfl, -⟩ | ⟨hnone, rfl⟩
          · exact hc
          · have hne : ref ≠ ref' := by
              rintro rfl
              simp [Confirmed, hnone] at hc
            simpa [Confirmed, hne] using hc
      | lease ref' pinned ends =>
          have hkeep := hc.updateRollbacks { ref := ref', pinned := some pinned }
            { status := some .draining, leaseUntil := some (some ends) } fun row hrow hh => by
              obtain ⟨-, hst, -⟩ := pinned_iff.1 hh
              exact absurd (hst.symm.trans ((confirmed_of_row hrow).1 hc)) (howed _ _ _ rfl).1
          rcases exec_updateRollbacks h with ⟨-, rfl⟩ | ⟨e, -, rfl | rfl⟩
          · exact hkeep
          · exact hc
          · exact hkeep
      | bump ref' =>
          rcases exec_updateRollback h with ⟨rfl, -⟩ | rfl
          · exact hc
          · exact hc.updateRollbacks _ _ fun row hrow _ => (confirmed_of_row hrow).1 hc
      | confirm ref' =>
          have hkeep := hc.updateRollbacks { ref := ref' }
            { status := some .confirmed, leaseUntil := some none } fun _ _ _ => rfl
          rcases exec_updateRollbacks h with ⟨-, rfl⟩ | ⟨e, -, rfl | rfl⟩
          · exact hkeep
          · exact hc
          · exact hkeep
      | release ref' =>
          have hrow (d : RollbackData) :
              Confirmed ref (w.state.updateRollbacks { ref := ref' } d) := by
            rw [Confirmed, updateRollbacks_ne (hlive (htime.1 rfl))]
            exact hc
          rcases exec_updateRollbacks h with ⟨-, rfl⟩ | ⟨e, -, rfl | rfl⟩
          · exact hrow _
          · exact hc
          · exact hrow _
      | fail ref' n =>
          rcases exec_updateRollback h with ⟨rfl, -⟩ | rfl
          · exact hc
          · rw [Confirmed, updateRollbacks_ne (hlive (htime rfl))]
            exact hc

end Lease

end VaultRun.Game
