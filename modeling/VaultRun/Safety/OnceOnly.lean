import VaultRun.Concurrency.Alone
import VaultRun.Game.Scenario
import VaultRun.Game.Transactions

/-!
Owners that do not outlive their leases reverse once: the rows of the outbox are leased cells, the operator
acknowledges one rollback for each of them and for each owner that has died with one in hand, and none is lost
before that.
-/

namespace VaultRun.Safety.OnceOnly

open VaultRun.Concurrency VaultRun.Data VaultRun.Game VaultRun.Game.Transactions Program

@[reducible] def leaseEnd : Stmt → Option ℕ
  | .createRollback _ row => row.leaseUntil
  | .updateRollbacks _ d => d.leaseUntil.join
  | _ => none

@[reducible] def ticks : Event → Option ℕ
  | .tick ms => some ms
  | _ => none

/-- The store answers, a row is taken before its lease runs out, and no lease runs out on an owner that is
alive. -/
@[reducible] def onceRule : GameRule where
  act _ o s w := (s.outboxRef.isSome → o = .ok) ∧ ∀ ends ∈ leaseEnd s, w.state.now < ends
  kill _ _ := True
  env _ e w := ∀ ms ∈ ticks e, ∀ x ∈ w.log, ∀ h ∈ holds x.call w.log, Killed x.call w.log ∨
    w.state.now + ms < h.ends

/-- An owner has died after the operator had accepted the rollback of the row. -/
def Drops (ref : RollbackRef) : GameEntry → List GameEntry → Prop
  | .killed i _ _, earlier => (holds i earlier).any fun h => h.ref = ref && h.accepted = some true
  | _, _ => False

instance (ref : RollbackRef) (x : GameEntry) (earlier : List GameEntry) : Decidable (Drops ref x earlier) := by
  cases x <;> simp only [Drops] <;> infer_instance

def lost (ref : RollbackRef) : List GameEntry → ℕ
  | [] => 0
  | x :: log => (if Drops ref x log then 1 else 0) + lost ref log

structure Consistent (i : ℕ) (w : GameWorld) : Prop where
  own : ∀ h, holds i w.log = some h → refOf i w.log = some h.ref
  responded : ∀ a, Responded a (lastBy i w.log) → ∃ h, holds i w.log = some h ∧ h.accepted = some a
  stored : ¬ StoreFailed (lastBy i w.log)

structure Counted (σ : State) (w : GameWorld) : Prop where
  once : ∀ ref, acks ref w.log ≤ 1 + lost ref w.log
  settled : ∀ ref, lost ref w.log < acks ref w.log → Confirmed ref w.state ∨
    ∃ i h, ¬ Killed i w.log ∧ holds i w.log = some h ∧ h.ref = ref ∧ h.accepted = some true
  accepted : ∀ i h, holds i w.log = some h → h.accepted = some true → 1 ≤ acks h.ref w.log
  confirmed : ∀ ref, Confirmed ref w.state → Confirmed ref σ ∨ 1 ≤ acks ref w.log

structure OnceInv (σ : State) (w : GameWorld) : Prop where
  exclusive : ∀ ref, Lease.Exclusive (leaseOf ref w)
  covered : ∀ ref, Lease.Covered (leaseOf ref w)
  live : ∀ i h, holds i w.log = some h → ¬ Killed i w.log → w.state.now < h.ends
  consistent : ∀ i, Consistent i w
  counted : Counted σ w

def onceOnly (P : Params) (σ : State) : Contract (system P) where
  rule := onceRule.alive
  inv := OnceInv σ
  stmts := Stmt.OnOutbox
  pre := Informed
  ended i r w := r.isSome → holds i w.log = none

variable {P : Params} {i j : ℕ} {w w' : GameWorld} {s : Stmt} {r : game.Reply s} {o : Oracle}
  {σ σ' : State} {ref : RollbackRef} {h : Hold}

lemma lost_answered {b a : State} {log : List GameEntry} : lost ref (.answered i s r b a :: log) = lost ref log := by
  simp [lost, Drops]

lemma lost_le_cons {x : GameEntry} {log : List GameEntry} : lost ref log ≤ lost ref (x :: log) := Nat.le_add_left _ _

lemma killed_answered {b a : State} {log : List GameEntry} :
    Killed j (.answered i s r b a :: log) ↔ Killed j log := by
  simp [Killed]

section Owner

lemma closing_hold {a : Bool} (hc : Consistent i w) (hcl : Closing i ref a w) :
    ∃ h, holds i w.log = some h ∧ h.ref = ref ∧ h.accepted = some a := by
  obtain ⟨h, hh, ha⟩ := hc.responded a hcl.2
  have href := (hc.own h hh).symm.trans hcl.1
  exact ⟨h, hh, Option.some.inj href, ha⟩

lemma primed_hold (hc : Consistent i w) (hp : Primed i ref w) :
    ∃ ends, holds i w.log = some ⟨ref, ends, none⟩ := by
  rcases hp.2 with htaken | ⟨-, hfailed⟩
  · exact holds_of_taken htaken
  · exact absurd hfailed hc.stored

lemma Consistent.of_same (hc : Consistent i w) (hlast : lastBy i w'.log = lastBy i w.log)
    (hholds : holds i w'.log = holds i w.log) (href : refOf i w'.log = refOf i w.log) :
    Consistent i w' := by
  constructor
  · rw [hholds, href]
    exact hc.own
  · rw [hlast, hholds]
    exact hc.responded
  · rw [hlast]
    exact hc.stored

lemma holdAfter_ref (hs : s.outboxRef = none) (h : Option Hold) :
    (holdAfter h s r).map (·.ref) = h.map (·.ref) := by
  cases s <;> simp only [Stmt.outboxRef, reduceCtorEq] at hs <;> simp [holdAfter, Function.comp_def]

lemma holdAfter_taken (hs : s.outboxRef = some ref) (hret : s.returnsRow = none)
    (hh : holdAfter none s r = some h) : h.ref = ref ∧ h.accepted = none := by
  cases s <;> simp only [Stmt.outboxRef, reduceCtorEq, Option.some.injEq] at hs <;> subst hs
  case findRollback => cases hh
  case createRollback ref row =>
      cases r with
      | error e => cases hh
      | ok u =>
          obtain ⟨ends, -, rfl⟩ := Option.map_eq_some_iff.1 hh
          exact ⟨rfl, rfl⟩
  case updateRollback ref d => simp [holdAfter] at hh
  case updateRollbacks wh d =>
      have hd : d.status = some .draining := by simpa using hret
      simp only [holdAfter, hd] at hh
      split at hh
      · obtain ⟨ends, -, rfl⟩ := Option.map_eq_some_iff.1 hh
        exact ⟨rfl, rfl⟩
      · cases hh

lemma writesRow_of_returns (hs : s.OnOutbox) {ref : RollbackRef} (hret : s.returnsRow = some ref) :
    s.WritesRow ∧ s.outboxRef = some ref := by
  cases s <;> simp only [Stmt.returnsRow, reduceCtorEq] at hret
  case updateRollback ref d =>
      split_ifs at hret
      exact ⟨hs rfl, hret⟩
  case updateRollbacks wh d =>
      split_ifs at hret
      exact ⟨hs rfl, hret⟩

lemma Consistent.answer (hc : Consistent i w) (hp : Informed i s w) (hs : s.OnOutbox)
    (hok : s.outboxRef.isSome → o = .ok) (hexec : exec P o i s w.state = some (r, σ')) :
    Consistent i (w.answer i s r σ') := by
  have hholds : holds i (w.answer i s r σ').log = holdAfter (holds i w.log) s r := foldBy_self
  have href : refOf i (w.answer i s r σ').log = s.outboxRef.or (refOf i w.log) := foldBy_self
  have hlast : lastBy i (w.answer i s r σ').log = some (.answered i s r w.state σ') :=
    lastBy_answered_self
  constructor
  · intro h hh
    rw [hholds] at hh
    rw [href]
    cases hout : s.outboxRef with
    | none =>
        have hmap := holdAfter_ref (r := r) hout (holds i w.log)
        rw [hh] at hmap
        obtain ⟨h', hh', heq⟩ := Option.map_eq_some_iff.1 hmap.symm
        exact (hc.own h' hh').trans (congrArg some heq)
    | some ref =>
        cases hret : s.returnsRow with
        | none =>
            rw [hp.idle ref hout hret] at hh
            rw [(holdAfter_taken hout hret hh).1]
            rfl
        | some ref' =>
            rw [holdAfter_returned (writesRow_of_returns hs hret).1 hret] at hh
            cases hh
  · intro a ha
    rw [hlast] at ha
    cases s with
    | operatorRollback op k b =>
        obtain ⟨ref, -, -, hprimed⟩ := hp.emits op k b rfl
        obtain ⟨ends, hhold⟩ := primed_hold hc hprimed
        refine ⟨⟨ref, ends, some r.isOk⟩, ?_, congrArg some ha⟩
        rw [hholds, hhold]
        rfl
    | _ => cases ha
  · rw [hlast]
    cases r with
    | ok a => exact id
    | error e =>
        rintro ⟨hstore, hne⟩
        have hout : s.outboxRef.isSome := by cases s <;> simp_all
        rw [hok hout] at hexec
        cases s <;> simp only [Stmt.asksStore, Bool.false_eq_true] at hstore
        case createRollback ref row =>
          simp only [exec, perform] at hexec
          split_ifs at hexec
          · cases hexec
            exact hne rfl
          · cases hexec
        all_goals cases hexec

end Owner

section Lease

open Function

variable (hexec : exec P o i s w.state = some (r, σ'))
include hexec

lemma step_taken (ref' : RollbackRef) (ends : ℕ) (hidle : holds i w.log = none)
    (hopen : (leaseOf ref' w).cell.Open w.state.now)
    (hcell : cellOf (σ'.rollbacks.row ref') = .held ends)
    (hrow : ∀ ref ≠ ref', σ'.rollbacks.row ref = w.state.rollbacks.row ref)
    (hhold : holdAfter none s r = some ⟨ref', ends, none⟩) :
    Lease.Step (leaseOf ref w) (leaseOf ref (w.answer i s r σ')) := by
  by_cases hne : ref = ref'
  · subst hne
    rw [leaseOf_answer hexec, hcell, hidle, hhold, endsOf_self]
    exact .acquire _ i ends hopen
  · rw [leaseOf_kept hexec (by rw [hrow ref hne]) (by rw [hidle, hhold, endsOf_ne (Ne.symm hne)]; rfl)]
    exact .stay _

lemma step_returned {ref' : RollbackRef} (hs : s.WritesRow) (hret : s.returnsRow = some ref')
    (hh : holds i w.log = some h) (href : h.ref = ref') (hlive : w.state.now < h.ends)
    (hcell : cellOf (σ'.rollbacks.row ref') = .free ∨ cellOf (σ'.rollbacks.row ref') = .done) :
    Lease.Step (leaseOf ref w) (leaseOf ref (w.answer i s r σ')) := by
  have hhold : holdAfter (holds i w.log) s r = none := holdAfter_returned hs hret
  by_cases hne : ref = ref'
  · subst hne
    have hi : (leaseOf ref w).Live i := ⟨h.ends, by simp [leaseOf, hh, endsOf, href], hlive⟩
    rcases hcell with hcell | hcell <;> rw [leaseOf_answer hexec, hcell, hhold]
    · exact .giveBack _ i hi
    · exact .finish _ i hi
  · obtain ⟨-, hother⟩ := leaseOf_returned hexec hs hret
    have hdrop : (leaseOf ref w).drop i = leaseOf ref w := by
      have hnone : (leaseOf ref w).holder i = none := by
        simp [leaseOf, hh, endsOf, href, Ne.symm hne]
      rw [Lease.State.drop, ← hnone, update_eq_self]
    rw [hother ref hne, hdrop]
    exact .stay _

/-- What a call does to a row is a step of its lease. -/
lemma lease_step (hs : s.OnOutbox) (hp : Informed i s w) (hok : s.outboxRef.isSome → o = .ok)
    (hc : Consistent i w) (hlive : ∀ h, holds i w.log = some h → w.state.now < h.ends)
    (he : ∀ ref, Lease.Exclusive (leaseOf ref w)) :
    Lease.Step (leaseOf ref w) (leaseOf ref (w.answer i s r σ')) := by
  cases hw : s.writesRollbacks with
  | false =>
      rw [leaseOf_off hexec hw]
      exact .stay _
  | true =>
      have hout : s.outboxRef.isSome := by cases s <;> simp_all
      obtain rfl := hok hout
      have hp' : perform P i s w.state = some (r, σ') := hexec
      cases hs hw with
      | insert ref' k amount ends =>
          have hidle := hp.idle ref' rfl rfl
          simp only [perform] at hp'
          split_ifs at hp' with hrow <;> obtain ⟨rfl, rfl⟩ := Prod.mk.inj (Option.some.inj hp')
          · rw [leaseOf_kept hexec rfl rfl]
            exact .stay _
          · have hnone : w.state.rollbacks.row ref' = none := by simpa using hrow
            refine step_taken hexec ref' ends hidle ?_ ?_ (fun ref hne => ?_) rfl
            · simp [leaseOf, hnone, cellOf, Lease.Cell.Open]
            · simp [cellOf]
            · simp [hne]
      | lease ref' pinned ends =>
          have hidle := hp.idle ref' rfl rfl
          obtain ⟨rfl, rfl⟩ := Prod.mk.inj (Option.some.inj hp')
          by_cases hpin : Pinned ref' pinned w.state
          · refine step_taken hexec ref' ends hidle (hpin.open hp.owed) (pinned_row hpin)
              (fun ref hne => updateRollbacks_ne hne) ?_
            simp [holdAfter, count_pinned.2 hpin]
          · have hcount := mt count_pinned.1 hpin
            rw [leaseOf_kept hexec (by rw [unpinned_row _ hpin])]
            · exact .stay _
            · simp only [holdAfter]
              split
              · rename_i heq
                exact absurd (Except.ok.inj heq) hcount
              · rfl
      | bump ref' =>
          have hcell : cellOf (σ'.rollbacks.row ref) = cellOf (w.state.rollbacks.row ref) := by
            rcases exec_updateRollback hexec with ⟨rfl, -⟩ | rfl
            · rfl
            · exact cellOf_bump
          rw [leaseOf_kept hexec hcell rfl]
          exact .stay _
      | confirm ref' =>
          obtain ⟨h, hh, href, -⟩ := closing_hold hc (hp.confirms ref' rfl)
          have hlt := hlive h hh
          refine step_returned hexec (hs hw) rfl hh href hlt (.inr ?_)
          have hheld := (he ref').held i h.ends (by simp [leaseOf, hh, endsOf, href]) hlt
          obtain ⟨rfl, rfl⟩ := Prod.mk.inj (Option.some.inj hp')
          exact cellOf_confirmed hheld
      | release ref' =>
          obtain ⟨h, hh, href, -⟩ := closing_hold hc (hp.releases ref' rfl)
          obtain ⟨rfl, rfl⟩ := Prod.mk.inj (Option.some.inj hp')
          exact step_returned hexec (hs hw) rfl hh href (hlive h hh) (.inl cellOf_pending)
      | fail ref' n =>
          obtain ⟨h, hh, href, -⟩ := closing_hold hc (hp.fails ref' n rfl)
          refine step_returned hexec (hs hw) rfl hh href (hlive h hh) (.inl ?_)
          simp only [perform] at hp'
          split_ifs at hp' with hrow <;> obtain ⟨rfl, rfl⟩ := Prod.mk.inj (Option.some.inj hp')
          · exact cellOf_pending
          · have hnone : w.state.rollbacks.row ref' = none := by simpa using hrow
            rw [hnone]
            rfl

end Lease

section Step

lemma live_of_holds (hi : OnceInv σ w) (hh : holds i w.log = some h) (hlive : ¬ Killed i w.log) :
    (leaseOf h.ref w).Live i :=
  ⟨h.ends, by simp [leaseOf, hh, endsOf], hi.live i h hh hlive⟩

/-- What has been acknowledged for a row that is held without an answer has been lost. -/
lemma acks_held {ends : ℕ} (hi : OnceInv σ w) (hh : holds i w.log = some ⟨ref, ends, none⟩)
    (halive : ¬ Killed i w.log) : acks ref w.log ≤ lost ref w.log := by
  have hlive : (leaseOf ref w).Live i := live_of_holds hi hh halive
  by_contra hlt
  rcases hi.counted.settled ref (not_le.1 hlt) with hdone | ⟨j, h, hjalive, hj, rfl, hacc⟩
  · exact (hi.exclusive ref).not_done hlive (leaseOf_done.2 hdone)
  · obtain rfl := (hi.exclusive h.ref).unique i j hlive (live_of_holds hi hj hjalive)
    rw [← Option.some.inj (hh.symm.trans hj)] at hacc
    cases hacc

lemma accepted_next (hi : OnceInv σ w) (hp : Informed i s w) (hs : s.OnOutbox) (he : s.emits = false)
    (hh : holds i w.log = some h) (hacc : h.accepted = some true) :
    holdAfter (holds i w.log) s r = some h ∨ s = .confirmRow h.ref := by
  have hclosing {ref : RollbackRef} {a : Bool} (hcl : Closing i ref a w) : h.ref = ref ∧ a = true := by
    obtain ⟨h', hh', href, ha⟩ := closing_hold (hi.consistent i) hcl
    obtain rfl := Option.some.inj (hh.symm.trans hh')
    exact ⟨href, by simpa using ha.symm.trans hacc⟩
  cases hout : s.outboxRef with
  | none =>
      left
      rw [holdAfter_off hout he, hh]
  | some ref =>
      cases hret : s.returnsRow with
      | none =>
          rw [hp.idle ref hout hret] at hh
          cases hh
      | some ref' =>
          cases (writesRow_of_returns hs hret).1 with
          | insert | lease | bump => simp at hret
          | confirm ref =>
              obtain ⟨rfl, -⟩ := hclosing (hp.confirms ref rfl)
              exact .inr rfl
          | release ref =>
              obtain ⟨-, ha⟩ := hclosing (hp.releases ref rfl)
              cases ha
          | fail ref n =>
              obtain ⟨-, ha⟩ := hclosing (hp.fails ref n rfl)
              cases ha

lemma accepted_before (hp : Informed i s w) (hs : s.OnOutbox) (he : s.emits = false)
    (hh : holdAfter (holds i w.log) s r = some h) (hacc : h.accepted = some true) :
    holds i w.log = some h := by
  cases hout : s.outboxRef with
  | none =>
      rwa [holdAfter_off hout he] at hh
  | some ref =>
      cases hret : s.returnsRow with
      | none =>
          rw [hp.idle ref hout hret] at hh
          rw [(holdAfter_taken hout hret hh).2] at hacc
          cases hacc
      | some ref' =>
          rw [holdAfter_returned (writesRow_of_returns hs hret).1 hret] at hh
          cases hh

lemma holdAfter_ends {held : Option Hold} (hh : holdAfter held s r = some h) :
    (∃ h', held = some h' ∧ h'.ends = h.ends) ∨ leaseEnd s = some h.ends := by
  cases s with
  | createRollback ref row =>
      cases r with
      | error e => exact .inl ⟨h, hh, rfl⟩
      | ok u =>
          obtain ⟨ends, hends, rfl⟩ := Option.map_eq_some_iff.1 hh
          exact .inr hends
  | updateRollback ref d =>
      simp only [holdAfter] at hh
      split_ifs at hh
      exact .inl ⟨h, hh, rfl⟩
  | updateRollbacks wh d =>
      simp only [holdAfter] at hh
      split at hh
      · exact .inl ⟨h, hh, rfl⟩
      · split at hh
        · obtain ⟨ends, hends, rfl⟩ := Option.map_eq_some_iff.1 hh
          exact .inr hends
        · exact .inl ⟨h, hh, rfl⟩
      · cases hh
  | operatorRollback op k b =>
      obtain ⟨h', hh', rfl⟩ := Option.map_eq_some_iff.1 hh
      exact .inl ⟨h', hh', rfl⟩
  | _ => exact .inl ⟨h, hh, rfl⟩

variable (hi : OnceInv σ w) (halive : ¬ Killed i w.log) (hexec : exec P o i s w.state = some (r, σ'))
include hi halive hexec

lemma counted_emit {op b : ℕ} {k : Key} (hemit : s = .operatorRollback op k b) (hp : Informed i s w) :
    Counted σ (w.answer i s r σ') := by
  subst hemit
  obtain ⟨ref₀, -, -, hprimed⟩ := hp.emits op k b rfl
  obtain ⟨ends, hhold⟩ := primed_hold (hi.consistent i) hprimed
  have hacks (ref : RollbackRef) : acks ref (w.answer i (Stmt.operatorRollback op k b) r σ').log =
      (if r.isOk ∧ ref₀ = ref then 1 else 0) + acks ref w.log := acks_emit hprimed.1
  have hlost (ref : RollbackRef) : lost ref (w.answer i (Stmt.operatorRollback op k b) r σ').log =
      lost ref w.log := lost_answered
  have hle : acks ref₀ w.log ≤ lost ref₀ w.log := acks_held hi hhold halive
  have hself : holds i (w.answer i (Stmt.operatorRollback op k b) r σ').log =
      some ⟨ref₀, ends, some r.isOk⟩ := by
    rw [holds, World.answer_log, foldBy_self, ← holds, hhold]
    rfl
  have hother {j : ℕ} (hj : j ≠ i) : holds j (w.answer i (Stmt.operatorRollback op k b) r σ').log =
      holds j w.log := foldBy_answered hj.symm
  have hrows : σ'.rollbacks = w.state.rollbacks := exec_rollbacks hexec rfl
  constructor
  · intro ref
    have := hi.counted.once ref
    rw [hacks, hlost]
    split_ifs with hr
    · obtain ⟨-, rfl⟩ := hr
      omega
    · omega
  · intro ref hlt
    rw [hacks, hlost] at hlt
    split_ifs at hlt with hr
    · exact .inr ⟨i, _, mt killed_answered.1 halive, hself, hr.2, congrArg some hr.1⟩
    · rcases hi.counted.settled ref (by omega) with hdone | ⟨j, h, hjalive, hj, href, hacc⟩
      · left
        rwa [World.answer_state, Confirmed, hrows]
      · have hne : j ≠ i := by
          rintro rfl
          rw [← Option.some.inj (hhold.symm.trans hj)] at hacc
          cases hacc
        exact .inr ⟨j, h, mt killed_answered.1 hjalive, (hother hne).trans hj, href, hacc⟩
  · intro j h hj hacc
    rw [hacks]
    by_cases hne : j = i
    · subst hne
      obtain rfl := Option.some.inj (hself.symm.trans hj)
      have hr : r.isOk = true := Option.some.inj hacc
      simp [hr]
    · have := hi.counted.accepted j h ((hother hne).symm.trans hj) hacc
      omega
  · intro ref hdone
    rw [World.answer_state, Confirmed, hrows] at hdone
    refine (hi.counted.confirmed ref hdone).imp_right fun hle => ?_
    rw [hacks]
    omega

lemma counted_quiet (hp : Informed i s w) (hs : s.OnOutbox) (hok : s.outboxRef.isSome → o = .ok)
    (he : s.emits = false) : Counted σ (w.answer i s r σ') := by
  have hacks (ref : RollbackRef) : acks ref (w.answer i s r σ').log = acks ref w.log := acks_quiet he
  have hself : holds i (w.answer i s r σ').log = holdAfter (holds i w.log) s r := foldBy_self
  have hother {j : ℕ} (hj : j ≠ i) : holds j (w.answer i s r σ').log = holds j w.log :=
    foldBy_answered hj.symm
  have hlost (ref : RollbackRef) : lost ref (w.answer i s r σ').log = lost ref w.log := lost_answered
  have hstep (ref : RollbackRef) : Lease.Step (leaseOf ref w) (leaseOf ref (w.answer i s r σ')) :=
    lease_step hexec hs hp hok (hi.consistent i) (fun h hh => hi.live i h hh halive) hi.exclusive
  constructor
  · intro ref
    rw [hacks, hlost]
    exact hi.counted.once ref
  · intro ref hlt
    rw [hacks, hlost] at hlt
    rcases hi.counted.settled ref hlt with hdone | ⟨j, h, hjalive, hj, rfl, hacc⟩
    · exact .inl (leaseOf_done.1 ((hstep ref).done (hi.exclusive ref) (leaseOf_done.2 hdone)))
    · by_cases hne : j = i
      · subst hne
        rcases accepted_next hi hp hs he hj hacc (r := r) with hkept | rfl
        · exact .inr ⟨j, h, mt killed_answered.1 hjalive, hself.trans hkept, rfl, hacc⟩
        · obtain rfl := hok rfl
          obtain ⟨rfl, rfl⟩ := Prod.mk.inj (Option.some.inj hexec)
          obtain ⟨t, ht, hlt⟩ := live_of_holds hi hj hjalive
          exact .inl (cellOf_done.1 (cellOf_confirmed ((hi.exclusive h.ref).held j t ht hlt)))
      · exact .inr ⟨j, h, mt killed_answered.1 hjalive, (hother hne).trans hj, rfl, hacc⟩
  · intro j h hj hacc
    rw [hacks]
    by_cases hne : j = i
    · subst hne
      exact hi.counted.accepted j h (accepted_before hp hs he (hself.symm.trans hj) hacc) hacc
    · exact hi.counted.accepted j h ((hother hne).symm.trans hj) hacc
  · intro ref hdone
    rw [hacks]
    rcases confirmed_exec hexec hs hdone with hdone | rfl
    · exact hi.counted.confirmed ref hdone
    · obtain ⟨h, hh, rfl, hacc⟩ := closing_hold (hi.consistent i) (hp.confirms ref rfl)
      exact .inr (hi.counted.accepted i h hh hacc)

end Step

lemma onceOnly_step (hs : s.OnOutbox) (hi : OnceInv σ w) (hp : Informed i s w)
    (ha : (onceOnly P σ).Answers i s w r w') : OnceInv σ w' := by
  obtain ⟨o, σ', ⟨⟨hok, hend⟩, halive⟩, hexec, rfl⟩ := ha
  have hstep (ref : RollbackRef) : Lease.Step (leaseOf ref w) (leaseOf ref (w.answer i s r σ')) :=
    lease_step hexec hs hp hok (hi.consistent i) (fun h hh => hi.live i h hh halive) hi.exclusive
  constructor
  · exact fun ref => (hstep ref).exclusive (hi.exclusive ref)
  · exact fun ref => (hstep ref).covered (hi.covered ref)
  · intro j h hj hjalive
    rw [World.answer_state, exec_now hexec]
    by_cases hne : j = i
    · subst hne
      have hself : holdAfter (holds j w.log) s r = some h := foldBy_self.symm.trans hj
      rcases holdAfter_ends hself with ⟨h', hh', heq⟩ | hends
      · exact (hi.live j h' hh' halive).trans_eq heq
      · exact hend _ hends
    · exact hi.live j h ((foldBy_answered (Ne.symm hne)).symm.trans hj) (mt killed_answered.2 hjalive)
  · intro j
    by_cases hne : j = i
    · subst hne
      exact (hi.consistent j).answer hp hs hok hexec
    · have hij := Ne.symm hne
      exact (hi.consistent j).of_same (lastBy_answered hij) (foldBy_answered hij) (foldBy_answered hij)
  · cases he : s.emits with
    | false => exact counted_quiet hi halive hexec hp hs hok he
    | true =>
        cases s <;> simp only [Stmt.emits, Bool.false_eq_true] at he
        exact counted_emit hi halive hexec rfl hp

lemma counted_move (hi : OnceInv σ w) (hm : (onceOnly P σ).Moves w w') : Counted σ w' := by
  have hholds (i : ℕ) : holds i w'.log = holds i w.log := hm.foldBy
  have hdone (ref : RollbackRef) : Confirmed ref w'.state ↔ Confirmed ref w.state := by
    rw [Confirmed, Confirmed, (moves_tables hm).rollbacks]
  have hacks (ref : RollbackRef) : acks ref w'.log = acks ref w.log := by
    rcases hm with ⟨n, e, a, p, -, -, rfl⟩ | ⟨j, -, rfl⟩
    · exact acks_moved
    · exact acks_killed
  have hlost (ref : RollbackRef) : lost ref w.log ≤ lost ref w'.log := by
    rcases hm with ⟨n, e, a, p, -, -, rfl⟩ | ⟨j, -, rfl⟩ <;> exact lost_le_cons
  constructor
  · intro ref
    have := hi.counted.once ref
    have := hlost ref
    rw [hacks]
    omega
  · intro ref hlt
    rw [hacks] at hlt
    rcases hi.counted.settled ref ((hlost ref).trans_lt hlt) with hconf | ⟨i, h, halive, hh, rfl, hacc⟩
    · exact .inl ((hdone ref).2 hconf)
    refine .inr ⟨i, h, fun hkilled => ?_, (hholds i).trans hh, rfl, hacc⟩
    -- an owner that dies here takes the acknowledgement with it
    rcases hm with ⟨n, e, a, p, -, -, rfl⟩ | ⟨j, -, rfl⟩
    · exact halive (by simpa [Killed] using hkilled)
    · obtain rfl : j = i := by
        by_contra hne
        exact halive (by simpa [Killed, Ne.symm hne] using hkilled)
      have hdrop : Drops h.ref (.killed j w.state (w.state.abort j)) w.log := by simp [Drops, hh, hacc]
      have hone := hi.counted.once h.ref
      rw [World.kill_log, lost] at hlt
      simp only [system, hdrop, if_true] at hlt
      omega
  · intro i h hh hacc
    rw [hholds] at hh
    rw [hacks]
    exact hi.counted.accepted i h hh hacc
  · intro ref hconf
    rw [hacks]
    exact hi.counted.confirmed ref ((hdone ref).1 hconf)

lemma holds_of_tick {ms : ℕ} (hrule : ∀ x ∈ w.log, ∀ h ∈ holds x.call w.log, Killed x.call w.log ∨
    w.state.now + ms < h.ends) (hh : holds i w.log = some h) (halive : ¬ Killed i w.log) :
    w.state.now + ms < h.ends := by
  obtain ⟨x, hx, s, r, b, a, rfl⟩ := issues_of_holds hh
  exact (hrule _ hx h hh).resolve_left halive

lemma onceOnly_move (hi : OnceInv σ w) (hm : (onceOnly P σ).Moves w w') : OnceInv σ w' := by
  have hholds (i : ℕ) : holds i w'.log = holds i w.log := hm.foldBy
  have hstep (ref : RollbackRef) : Lease.Step (leaseOf ref w) (leaseOf ref w') := by
    rw [leaseOf_moves hm]
    exact .wait _ _ (moves_now hm)
  constructor
  · exact fun ref => (hstep ref).exclusive (hi.exclusive ref)
  · exact fun ref => (hstep ref).covered (hi.covered ref)
  · intro i h hh halive
    rw [hholds] at hh
    rcases hm with ⟨n, e, a, p, hrule, he, rfl⟩ | ⟨j, -, rfl⟩
    · have halive' : ¬ Killed i w.log := by simpa [Killed] using halive
      rcases environment_now he with hnow | ⟨ms, rfl, hnow⟩
      · exact hnow.trans_lt (hi.live i h hh halive')
      · exact hnow.trans_lt (holds_of_tick (hrule ms rfl) hh halive')
    · refine hi.live i h hh ?_
      rintro ⟨b, a, hmem⟩
      exact halive ⟨b, a, List.mem_cons_of_mem _ hmem⟩
  · exact fun i => (hi.consistent i).of_same hm.lastBy hm.foldBy hm.foldBy
  · exact counted_move hi hm

lemma onceOnly_sound : (onceOnly P σ).Sound :=
  sound_of_uses parts_onOutbox (fun _ => stable_idle) (fun _ => parts_idle fun _ _ _ h => h)
    (fun _ _ _ _ _ => onceOnly_step) (fun _ _ => onceOnly_move) (fun _ _ _ => foldBy_of_absent)
    (fun _ _ _ _ h _ => h) fun _ _ _ _ _ _ _ _ h => by cases h

/-- No lease is running when the calls start. -/
def Unleased (σ : State) : Prop := ∀ ref row, σ.rollbacks.row ref = some row →
  row.status = .draining → row.leaseUntil.all (· < σ.now)

lemma onceInv_initial (hσ : Unleased σ) : OnceInv σ ⟨σ, []⟩ := by
  constructor
  · exact exclusive_initial σ
  · intro ref t hcell hle
    change cellOf (σ.rollbacks.row ref) = .held t at hcell
    cases hrow : σ.rollbacks.row ref with
    | none => simp [hrow, cellOf] at hcell
    | some row =>
        cases hst : row.status with
        | pending | confirmed => simp [hrow, cellOf, hst] at hcell
        | draining =>
            have hdue := hσ ref row hrow hst
            cases hl : row.leaseUntil with
            | none => simp [hrow, cellOf, hst, hl] at hcell
            | some e =>
                obtain rfl : e = t := by simpa [hrow, cellOf, hst, hl] using hcell
                rw [hl] at hdue
                simp only [Option.all_some, decide_eq_true_eq] at hdue
                exact absurd hdue (not_lt.2 hle)
  · intro i h hh
    cases hh
  · refine fun i => ⟨fun h hh => ?_, fun x hx => ?_, id⟩
    · cases hh
    · cases hx
  · refine ⟨fun ref => Nat.zero_le _, fun ref h => ?_, fun i h hh => ?_, fun ref h => .inl h⟩
    · cases h
    · cases hh

def scan (limit : ℕ) : Program game (List (RollbackRef × WalletRollback)) :=
  catching (do
    let now ← await .dateNow
    await (.findOwedRollbacks now limit))
    fun _ => pure []

lemma drainPending_eq (limit : ℕ) : WalletRollbackService.drainPending true limit =
    scan limit >>= loop WalletRollbackService.drainOne 0 := rfl

/-- A drain with this limit that starts now works on the row. -/
def Selected (P : Params) (limit : ℕ) (ref : RollbackRef) (row : WalletRollback) (σ : State) : Prop :=
  ∃ i rows, Evals (system P) (fun o _ => o = .ok) i (scan limit) σ (.ok rows) σ ∧ (ref, row) ∈ rows

def ahead (ref : RollbackRef) (σ : State) : ℕ :=
  ((σ.rollbacks.findMany fun _ r => r.owed σ.now).map (·.1)).idxOf ref

lemma evals_scan {limit : ℕ} {rows : List (RollbackRef × WalletRollback)} :
    Evals (system P) (fun o _ => o = .ok) i (scan limit) σ (.ok rows) σ ↔
      rows = (σ.rollbacks.findMany fun _ r => r.owed σ.now).take limit := by
  constructor
  · intro h
    obtain _ | _ | ⟨rfl, he, h⟩ := h
    obtain ⟨rfl, rfl⟩ := Prod.mk.inj (Option.some.inj he)
    obtain _ | _ | ⟨rfl, he, h⟩ := h
    obtain ⟨rfl, rfl⟩ := Prod.mk.inj (Option.some.inj he)
    cases h
    rfl
  · rintro rfl
    exact evals_catching (evals_bind (evals_await (o := .ok) rfl rfl) (evals_await (o := .ok) rfl rfl))

lemma selected_iff {row : WalletRollback} {limit : ℕ} (hrow : σ.rollbacks.row ref = some row)
    (howed : row.owed σ.now) : Selected P limit ref row σ ↔ ahead ref σ < limit := by
  rw [ahead, ← Table.mem_take_findMany (Table.mem_findMany.2 ⟨hrow, howed⟩)]
  constructor
  · rintro ⟨i, rows, hscan, hmem⟩
    rwa [evals_scan.1 hscan] at hmem
  · exact fun hmem => ⟨0, _, evals_scan.2 rfl, hmem⟩

def Owns (c : GameConfig) (ref : RollbackRef) (i : ℕ) : Prop :=
  ∃ h, holds i c.world.log = some h ∧ h.ref = ref ∧ c.world.state.now < h.ends

/-- The row is with a call that lives. -/
def InHand (c : GameConfig) (ref : RollbackRef) : Prop :=
  ∃ i s k, c.threads[i]? = some (.live (.call s k)) ∧ Owns c ref i

/-- The row is with a call that has died, until its lease runs out. -/
def Orphaned (c : GameConfig) (ref : RollbackRef) (row : WalletRollback) : Prop :=
  ∃ i h, c.threads[i]? = some .killed ∧ holds i c.world.log = some h ∧ h.ref = ref ∧
    row.leaseUntil = some h.ends ∧ c.world.state.now ≤ h.ends

lemma held_or_owed (hi : OnceInv σ w) {row : WalletRollback} (hrow : w.state.rollbacks.row ref = some row)
    (hne : row.status ≠ .confirmed) : (∃ i h, holds i w.log = some h ∧ h.ref = ref ∧
      row.leaseUntil = some h.ends ∧ w.state.now ≤ h.ends) ∨ row.owed w.state.now := by
  cases hst : row.status with
  | confirmed => exact absurd hst hne
  | pending => exact .inr (by simp [WalletRollback.owed, hst])
  | draining =>
      cases hl : row.leaseUntil with
      | none => exact .inr (by simp [WalletRollback.owed, hst, hl])
      | some t =>
          by_cases hlt : t < w.state.now
          · exact .inr (by simpa [WalletRollback.owed, hst, hl] using hlt)
          · have hcell : (leaseOf ref w).cell = .held t := by simp [leaseOf, hrow, cellOf, hst, hl]
            obtain ⟨i, hholder⟩ := hi.covered ref t hcell (not_lt.1 hlt)
            obtain ⟨h, hh, hends⟩ := Option.bind_eq_some_iff.1 hholder
            obtain ⟨href, heq⟩ := Option.ite_none_right_eq_some.1 hends
            obtain rfl := Option.some.inj heq
            exact .inl ⟨i, h, hh, href, rfl, not_lt.1 hlt⟩

/-- What the outbox promises of a run from `σ` that has come to `c`. -/
structure ReversedOnce (P : Params) (σ : State) (c : GameConfig) : Prop where
  one_owner : ∀ ref i j, Owns c ref i → Owns c ref j → i = j
  in_time : ∀ i h s k, c.threads[i]? = some (.live (.call s k)) → holds i c.world.log = some h → Owns c h.ref i
  acknowledged : ∀ ref, acks ref c.world.log ≤ 1 + lost ref c.world.log
  own : ∀ later x earlier i op k b, c.world.log = later ++ x :: earlier →
    x.Issues i (Stmt.operatorRollback op k b) → ∃ ref, refOf i earlier = some ref ∧ ref.operatorId = op ∧
      ref.betId = b ∧ ∀ row, c.world.state.rollbacks.row ref = some row → row.transactionId = k
  kept : ∀ ref row, c.world.state.rollbacks.row ref = some row →
    (row.status = .confirmed ∧ (Confirmed ref σ ∨ 0 < acks ref c.world.log)) ∨ InHand c ref ∨
      Orphaned c ref row ∨ row.owed c.world.state.now ∧
        ∀ limit, Selected P limit ref row c.world.state ↔ ahead ref c.world.state < limit

theorem reversed_once {c : GameConfig} (hown : OwnRows σ) (hσ : Unleased σ)
    (hc : onceRule.Reaches (system P) (Config.initial σ) c) : ReversedOnce P σ c := by
  obtain ⟨halive, hkilled⟩ := hc.alive
  have hgood : c.Good (onceOnly P σ) :=
    (Config.good_initial (onceInv_initial hσ)).reaches onceOnly_sound halive
  have hi : OnceInv σ c.world := hgood.inv
  have hrows : OwnInv σ c.world := ownInv_reaches hown hc
  have howns {i : ℕ} {h : Hold} {s : Stmt} {k : game.Reply s → Program game Outcome}
      (ht : c.threads[i]? = some (.live (.call s k))) (hh : holds i c.world.log = some h) : Owns c h.ref i := by
    refine ⟨h, hh, rfl, hi.live i h hh fun hdead => ?_⟩
    rw [hkilled i hdead] at ht
    cases ht
  refine ⟨fun ref i j => ?_, fun i h s k => howns, hi.counted.once, ?_, fun ref row hrow => ?_⟩
  · rintro ⟨h, hh, rfl, hlt⟩ ⟨h', hh', href, hlt'⟩
    exact (hi.exclusive h.ref).unique i j ⟨h.ends, by simp [leaseOf, hh, endsOf], hlt⟩
      ⟨h'.ends, by simp [leaseOf, hh', endsOf, href], hlt'⟩
  · intro later x earlier i op k b hlog hx
    obtain ⟨ref, href, rfl, rfl, -⟩ := hrows.emitted.split hlog i op k b hx
    exact ⟨ref, href, rfl, rfl, fun row hrow =>
      (hrows.rows ref row hrow).unique hrows (hrows.emission hlog hx href).2.2⟩
  · by_cases hst : row.status = .confirmed
    · refine .inl ⟨hst, ?_⟩
      exact hi.counted.confirmed ref ((confirmed_of_row hrow).2 hst)
    rcases held_or_owed hi hrow hst with ⟨i, h, hh, rfl, hlease, hle⟩ | howed
    · obtain ⟨x, hx, s, hs⟩ := issues_of_holds hh
      rcases hgood.live_or_over (hgood.callers x hx i s hs) with ⟨s, k, ht⟩ | hdead | ⟨r, hidle⟩
      · exact .inr (.inl ⟨i, s, k, ht, howns ht hh⟩)
      · exact .inr (.inr (.inl ⟨i, h, hdead, hh, rfl, hlease, hle⟩))
      · rw [hidle rfl] at hh
        cases hh
    · exact .inr (.inr (.inr ⟨howed, fun limit => selected_iff hrow howed⟩))

section Runs

open Scenario

/-- The void of bet 0 is refunded, the owner dies once the operator has accepted, and a drain that comes when
the lease has run out has the rollback accepted again. -/
def diesAccepted : List (Machine.Label Event Oracle) :=
  .env (.call (.reconcileVoidingBets 10)) :: acts 0 7 ++ .kill 0 :: .env (.tick 60001) ::
    .env (.call (.drainPending 50)) :: acts 1 6

theorem died_and_drained : ∃ c : GameConfig, acks refundRef c.world.log = 2 ∧
    lost refundRef c.world.log = 1 ∧ ReversedOnce (params true false) owing c := by
  have hrun : (system (params true false)).run (Config.initial owing) diesAccepted = some _ := rfl
  have hown : OwnRows owing := fun ref row hrow => by cases hrow
  have hσ : Unleased owing := fun ref row hrow => by cases hrow
  exact ⟨_, by decide, by decide,
    reversed_once hown hσ (Rule.reaches_of_run (R := onceRule) (by decide) hrun)⟩

def waiting (b : ℕ) : RollbackRef := ⟨1, b, .voidRefund⟩

/-- Operator 1 owes the refunds of bets 0 to 50. -/
def backlog : State :=
  { owing with
    rollbacks := (List.range 51).foldl (fun t b => t.insert (waiting b) ⟨.debit slot, none, .pending, 0, none⟩) ∅ }

/-- The last of 51 rows is neither held nor selected by the next drain; and the operator acknowledges a
rollback twice when the owner of the first has died. -/
theorem left_and_repeated : (∃ c : GameConfig,
      onceRule.Reaches (system (params true false)) (Config.initial backlog) c ∧
      ∃ row, c.world.state.rollbacks.row (waiting 50) = some row ∧ row.status ≠ .confirmed ∧
        acks (waiting 50) c.world.log = 0 ∧ (∀ i, holds i c.world.log = none) ∧
        ¬ Selected (params true false) 50 (waiting 50) row c.world.state) ∧
    ∃ c : GameConfig, onceRule.Reaches (system (params true false)) (Config.initial owing) c ∧
      acks refundRef c.world.log = 2 := by
  constructor
  · have hrow : backlog.rollbacks.row (waiting 50) = some ⟨.debit slot, none, .pending, 0, none⟩ := rfl
    refine ⟨_, .refl, _, hrow, by decide, rfl, fun _ => rfl, fun hselected => ?_⟩
    have hahead : ahead (waiting 50) backlog < 50 := (selected_iff hrow rfl).1 hselected
    exact absurd hahead (by decide +kernel)
  · have hrun : (system (params true false)).run (Config.initial owing) diesAccepted = some _ := rfl
    exact ⟨_, Rule.reaches_of_run (by decide) hrun, by decide⟩

end Runs

end VaultRun.Safety.OnceOnly
