import VaultRun.Game.Claims
import VaultRun.Game.Outbox

/-!
The calls that reverse a transaction at the operator: each of them holds nothing before and after, and
this is what it knows at every statement on the way.
-/

namespace VaultRun.Game

open VaultRun.Concurrency VaultRun.Data Program WalletRollbackService SeamlessOperatorWallet

def JustTaken (ref : RollbackRef) : Option GameEntry → Prop
  | some (.answered _ s r _ _) => ∃ ends, ∀ h, holdAfter h s r = some ⟨ref, ends, none⟩
  | _ => False

@[reducible] def Stmt.asksStore : Stmt → Bool
  | findRollback _ | createRollback _ _ | updateRollbacks _ _ => true
  | _ => false

def StoreFailed : Option GameEntry → Prop
  | some (.answered _ s (.error e) _ _) => s.asksStore ∧ e ≠ .p2002
  | _ => False

def Responded (accepted : Bool) : Option GameEntry → Prop
  | some (.answered _ (.operatorRollback _ _ _) r _ _) => r.isOk = accepted
  | _ => False

/-- The call may emit the rollback of the row: the row is its own, or the store has let it down. -/
def Primed (i : ℕ) (ref : RollbackRef) (w : GameWorld) : Prop :=
  refOf i w.log = some ref ∧ (JustTaken ref (lastBy i w.log) ∨
    holds i w.log = none ∧ StoreFailed (lastBy i w.log))

def Closing (i : ℕ) (ref : RollbackRef) (accepted : Bool) (w : GameWorld) : Prop :=
  refOf i w.log = some ref ∧ Responded accepted (lastBy i w.log)

structure Informed (i : ℕ) (s : Stmt) (w : GameWorld) : Prop where
  owed : TakesOwed s w.state
  idle : ∀ ref, s.outboxRef = some ref → s.returnsRow = none → holds i w.log = none
  emits : ∀ op k b, s = .operatorRollback op k b →
    ∃ ref, ref.operatorId = op ∧ ref.betId = b ∧ Primed i ref w
  confirms : ∀ ref, s = .confirmRow ref → Closing i ref true w
  releases : ∀ ref, s = .releaseRow ref → Closing i ref false w
  fails : ∀ ref n, s = .updateRollback ref
    { status := some .pending, leaseUntil := some none, attempts := fun _ => n } → Closing i ref false w

variable {P : Params} {C : Contract (system P)} {i : ℕ} {w w' : GameWorld} {s : Stmt}
  {r : game.Reply s} {ref : RollbackRef}

lemma not_confirmed_of_taken {o : Oracle} {σ σ' before after : State} (h : exec P o i s σ = some (r, σ'))
    (hs : s.OnOutbox) (howed : TakesOwed s σ)
    (htaken : JustTaken ref (some (.answered i s r before after))) : ¬ Confirmed ref σ := by
  obtain ⟨ends, hhold⟩ := htaken
  have hnone := hhold none
  cases hw : s.writesRollbacks with
  | false =>
      cases s <;> simp only [Stmt.writesRollbacks, Bool.true_eq_false] at hw <;> simp [holdAfter] at hnone
  | true =>
      cases hs hw with
      | insert ref' k amount ends =>
          rcases exec_createRollback h with ⟨-, e, rfl⟩ | ⟨hfree, -⟩
          · cases hnone
          · cases r with
            | error e => cases hnone
            | ok u =>
                obtain ⟨rfl, -⟩ := Hold.mk.inj (Option.some.inj hnone)
                simp [Confirmed, hfree]
      | lease ref' pinned ends =>
          rcases exec_updateRollbacks h with ⟨rfl, -⟩ | ⟨e, rfl, -⟩
          · simp only [holdAfter] at hnone
            split at hnone
            · rename_i hcount
              obtain ⟨rfl, -⟩ := Hold.mk.inj (Option.some.inj hnone)
              obtain ⟨row, hrow, hst, -⟩ := count_pinned.1 (Except.ok.inj hcount)
              rw [confirmed_of_row hrow, hst]
              exact (howed _ _ _ rfl).1
            · cases hnone
          · cases hnone
      | confirm | release | bump | fail => cases hnone

lemma holds_of_taken {log : List GameEntry} (h : JustTaken ref (lastBy i log)) :
    ∃ ends, holds i log = some ⟨ref, ends, none⟩ := by
  cases hlast : lastBy i log with
  | none =>
      rw [hlast] at h
      cases h
  | some x =>
      rw [hlast] at h
      obtain ⟨s, r, b, a, earlier, rfl, hfold⟩ := foldBy_of_lastBy hlast (f := holdAfter) (b := none)
      obtain ⟨ends, hends⟩ := h
      exact ⟨ends, hfold.trans (hends _)⟩

lemma stable_own (p : Option GameEntry → Option Hold → Option RollbackRef → Prop) :
    C.Stable i fun w => p (lastBy i w.log) (holds i w.log) (refOf i w.log) := by
  intro w w' h hw
  rw [h.lastBy, holds, refOf, h.foldBy, h.foldBy]
  exact hw

lemma stable_idle : C.Stable i fun w => holds i w.log = none := stable_own fun _ h _ => h = none

lemma stable_refOf (x : Option RollbackRef) : C.Stable i fun w => refOf i w.log = x :=
  stable_own fun _ _ ref => ref = x

lemma stable_primed : C.Stable i (Primed i ref) :=
  stable_own fun x h r => r = some ref ∧ (JustTaken ref x ∨ h = none ∧ StoreFailed x)

lemma stable_closing {a : Bool} : C.Stable i (Closing i ref a) :=
  stable_own fun x _ r => r = some ref ∧ Responded a x

lemma stable_now (t : ℕ) : C.Stable i fun w => t ≤ w.state.now := by
  rintro w w' ⟨-, -, hm | ⟨j, s, r, -, -, -, ha⟩⟩ hw
  · exact hw.trans (moves_now hm)
  · obtain ⟨o, a, -, hexec, rfl⟩ := ha
    exact hw.trans (exec_now hexec).ge

lemma now_answers {t : ℕ} (h : C.Answers i s w r w') (ht : t ≤ w.state.now) : t ≤ w'.state.now := by
  obtain ⟨o, a, -, hexec, rfl⟩ := h
  rw [World.answer_state, exec_now hexec]
  exact ht

lemma holds_answers (h : C.Answers i s w r w') : holds i w'.log = holdAfter (holds i w.log) s r := by
  obtain ⟨a, rfl⟩ := h.world
  exact foldBy_self

lemma refOf_answers (h : C.Answers i s w r w') : refOf i w'.log = s.outboxRef.or (refOf i w.log) := by
  obtain ⟨a, rfl⟩ := h.world
  exact foldBy_self

lemma lastBy_answers (h : C.Answers i s w r w') : ∃ before after,
    lastBy i w'.log = some (.answered i s r before after) := by
  obtain ⟨a, rfl⟩ := h.world
  exact ⟨_, _, lastBy_answered_self⟩

lemma justTaken_answers (h : C.Answers i s w r w') {ends : ℕ}
    (hr : ∀ h, holdAfter h s r = some ⟨ref, ends, none⟩) : JustTaken ref (lastBy i w'.log) := by
  obtain ⟨b, a, hlast⟩ := lastBy_answers h
  rw [hlast]
  exact ⟨ends, hr⟩

lemma storeFailed_answers {e : Err} (h : C.Answers i s w (.error e) w') (hs : s.asksStore)
    (he : e ≠ .p2002) : StoreFailed (lastBy i w'.log) := by
  obtain ⟨b, a, hlast⟩ := lastBy_answers h
  rw [hlast]
  exact ⟨hs, he⟩

lemma answers_error {e : Err} (h : C.Answers i s w (.error e) w') (hs : s.asksStore)
    (hcreate : ∀ ref row, s ≠ .createRollback ref row) : e ≠ .p2002 := by
  obtain ⟨o, a, -, hexec, -⟩ := h
  change exec P o i s w.state = some (.error e, a) at hexec
  rintro rfl
  cases s <;> simp only [Stmt.asksStore, Bool.false_eq_true] at hs
  case createRollback ref row => exact hcreate ref row rfl
  all_goals cases o <;> simp [exec, perform, Stmt.neverFails, Stmt.isOperatorCall] at hexec

lemma answers_dateNow {r : Except Err ℕ} (h : C.Answers i .dateNow w r w') :
    r = .ok w.state.now ∧ w'.state = w.state := by
  obtain ⟨o, a, -, hexec, rfl⟩ := h
  rcases exec_cases hexec with hp | ⟨hf, -⟩ | ⟨hv, -⟩
  · obtain ⟨rfl, rfl⟩ := Prod.mk.inj (Option.some.inj hp)
    exact ⟨rfl, rfl⟩
  · cases hf
  · cases hv

lemma informed_off (hs : s.outboxRef = none) (he : s.emits = false) : Informed i s w where
  owed ref pinned ends h := by
    subst h
    cases hs
  idle ref h := by
    rw [hs] at h
    cases h
  emits op k b h := by
    subst h
    cases he
  confirms ref h := by
    subst h
    cases hs
  releases ref h := by
    subst h
    cases hs
  fails ref n h := by
    subst h
    cases hs

lemma informed_find (h : holds i w.log = none) : Informed i (.findRollback ref) w := by
  constructor <;> simp [TakesOwed, h]

lemma informed_create (row : WalletRollback) (h : holds i w.log = none) :
    Informed i (.createRollback ref row) w := by
  constructor <;> simp [TakesOwed, h]

lemma informed_bump (h : holds i w.log = none) :
    Informed i (.updateRollback ref { attempts := (· + 1) }) w := by
  constructor <;> simp [TakesOwed, h]

lemma informed_lease {row : WalletRollback} {t ends : ℕ} (hrow : row.status ≠ .confirmed)
    (hdue : row.status = .draining → row.leaseUntil.all (· ≤ t)) (ht : t ≤ w.state.now)
    (h : holds i w.log = none) : Informed i (.leaseRow ref (row.status, row.leaseUntil) ends) w := by
  refine ⟨fun ref' pinned ends' h => ?_, fun _ _ _ => h, ?_, ?_, ?_, ?_⟩
  · obtain ⟨hwh, -⟩ := Stmt.updateRollbacks.inj h
    obtain ⟨-, hp⟩ := RollbackWhere.mk.inj hwh
    obtain rfl := Option.some.inj hp
    refine ⟨hrow, fun hst => ?_⟩
    have := hdue hst
    cases hl : row.leaseUntil with
    | none => rfl
    | some e =>
        rw [hl] at this
        simp only [Option.all_some, decide_eq_true_eq] at this ⊢
        exact this.trans ht
  all_goals simp

lemma informed_emit {op b : ℕ} {k : Key} (hop : ref.operatorId = op) (hb : ref.betId = b)
    (h : Primed i ref w) : Informed i (.operatorRollback op k b) w := by
  refine ⟨?_, ?_, fun op' k' b' hs => ?_, ?_, ?_, ?_⟩
  · simp [TakesOwed]
  · simp
  · obtain ⟨rfl, -, rfl⟩ := Stmt.operatorRollback.inj hs
    exact ⟨ref, hop, hb, h⟩
  all_goals simp

lemma informed_confirm (h : Closing i ref true w) : Informed i (.confirmRow ref) w := by
  constructor <;> simp_all [TakesOwed]

lemma informed_release (h : Closing i ref false w) : Informed i (.releaseRow ref) w := by
  constructor <;> simp_all [TakesOwed]

lemma informed_fail {n : ℕ} (h : Closing i ref false w) : Informed i (.updateRollback ref
    { status := some .pending, leaseUntil := some none, attempts := fun _ => n }) w := by
  refine ⟨?_, ?_, ?_, ?_, ?_, fun ref' n' hs => ?_⟩
  · simp [TakesOwed]
  · simp
  · simp
  · simp
  · simp
  · obtain ⟨rfl, -⟩ := Stmt.updateRollback.inj hs
    exact h

section Acks

instance (a : Bool) : DecidablePred (Responded a) := fun x => by
  unfold Responded
  split <;> infer_instance

/-- The operator accepts a rollback that is emitted for the row. -/
def Acknowledges (ref : RollbackRef) (x : GameEntry) (earlier : List GameEntry) : Prop :=
  Responded true (some x) ∧ refOf x.call earlier = some ref

instance (ref : RollbackRef) (x : GameEntry) (earlier : List GameEntry) :
    Decidable (Acknowledges ref x earlier) :=
  inferInstanceAs (Decidable (_ ∧ _))

def acks (ref : RollbackRef) : List GameEntry → ℕ
  | [] => 0
  | x :: log => (if Acknowledges ref x log then 1 else 0) + acks ref log

variable {x : GameEntry} {log : List GameEntry} {b a : State}

lemma acks_quiet (hs : s.emits = false) : acks ref (.answered i s r b a :: log) = acks ref log := by
  have hnone : ¬ Acknowledges ref (.answered i s r b a) log := by
    rintro ⟨hresp, -⟩
    cases s <;> simp only [Stmt.emits, Bool.true_eq_false] at hs <;> exact hresp
  simp [acks, hnone]

lemma acks_emit {op c : ℕ} {k : Key} {r : Except Err Unit} {ref' : RollbackRef}
    (href : refOf i log = some ref') :
    acks ref (.answered i (Stmt.operatorRollback op k c) r b a :: log) =
      (if r.isOk ∧ ref' = ref then 1 else 0) + acks ref log := by
  simp [acks, Acknowledges, Responded, Entry.call, href]

lemma acks_moved {n : ℕ} {e : Event} : acks ref (.moved n e b a :: log) = acks ref log := by
  simp [acks, Acknowledges, Responded]

lemma acks_killed {n : ℕ} : acks ref (.killed n b a :: log) = acks ref log := by
  simp [acks, Acknowledges, Responded]

lemma acks_le_cons : acks ref log ≤ acks ref (x :: log) := Nat.le_add_left _ _

lemma acks_le_append {later : List GameEntry} : acks ref log ≤ acks ref (later ++ log) := by
  induction later with
  | nil => exact le_rfl
  | cons x later ih => exact ih.trans acks_le_cons

lemma exists_of_acks_pos (h : 0 < acks ref log) : ∃ later i op k b before after earlier, log = later ++
    .answered i (Stmt.operatorRollback op k b) (.ok ()) before after :: earlier ∧ refOf i earlier = some ref := by
  induction log with
  | nil => cases h
  | cons x log ih =>
      by_cases hack : Acknowledges ref x log
      · obtain ⟨hresp, href⟩ := hack
        unfold Responded at hresp
        split at hresp
        · rename_i i op k b r before after heq
          obtain rfl := Option.some.inj heq
          cases r with
          | ok u => exact ⟨[], i, op, k, b, before, after, log, rfl, href⟩
          | error e => cases hresp
        · cases hresp
      · rw [acks, if_neg hack, Nat.zero_add] at h
        obtain ⟨later, i, op, k, b, before, after, earlier, rfl, href⟩ := ih h
        exact ⟨x :: later, i, op, k, b, before, after, earlier, rfl, href⟩

end Acks

/-- What a call comes to know of a row when it finds that it need not emit, or is told that the operator
has accepted the rollback. -/
structure Tells (C : Contract (system P)) (i : ℕ) (ref : RollbackRef) (T : GameWorld → Prop) : Prop where
  stable : C.Stable i T
  own : ∀ s w r w', C.Answers i s w r w' → T w → T w'
  found : ∀ w row w', C.inv w → C.inv w' → C.Answers i (.findRollback ref) w (.ok row) w' →
    refOf i w.log = some ref ∨ row.any (·.status = .confirmed) ∨ row.any (hasLiveLease · w.state.now) →
      T w'
  accepted : ∀ w, C.inv w → Closing i ref true w → T w

lemma tells_nothing : Tells C i ref fun _ => True where
  stable _ _ _ _ := trivial
  own _ _ _ _ _ _ := trivial
  found _ _ _ _ _ _ _ := trivial
  accepted _ _ _ := trivial

lemma hasLiveLease_of_le {row : WalletRollback} {t t' : ℕ} (h : hasLiveLease row t') (ht : t ≤ t') :
    hasLiveLease row t := by
  simp only [hasLiveLease, Bool.and_eq_true] at h ⊢
  refine ⟨h.1, ?_⟩
  cases hl : row.leaseUntil with
  | none => simp [hl] at h
  | some e =>
      have hlt := h.2
      simp only [hl, Option.any_some, decide_eq_true_eq] at hlt ⊢
      exact ht.trans_lt hlt

section Calls

variable (hC : ∀ s w, C.inv w → Informed i s w → C.pre i s w)
include hC

def Attempted (i : ℕ) (ref : RollbackRef) : Except Err Bool → GameWorld → Prop
  | .ok true, w => Primed i ref w
  | .ok false, w => holds i w.log = none ∧ refOf i w.log = some ref
  | .error _, w => holds i w.log = none ∧ Primed i ref w

lemma sat_acquireLease {row : WalletRollback} {t : ℕ} (hrow : row.status ≠ .confirmed)
    (hdue : row.status = .draining → row.leaseUntil.all (· ≤ t)) (ht : t ≤ w.state.now)
    (hidle : holds i w.log = none) : Sat C i (Attempted i ref) (acquireLease ref row) w := by
  refine sat_await_bind fun w₁ h₁ hi₁ => ⟨hC _ _ hi₁ (informed_off rfl rfl), fun r w₂ ha _ => ?_⟩
  obtain ⟨rfl, hsame⟩ := answers_dateNow ha
  have hidle₂ : holds i w₂.log = none := (holds_answers ha).trans (stable_idle.interferes h₁ hidle)
  have ht₂ : t ≤ w₂.state.now := hsame ▸ (stable_now t).interferes h₁ ht
  refine sat_await_bind fun w₃ h₃ hi₃ => ?_
  have hidle₃ := stable_idle.interferes h₃ hidle₂
  have ht₃ := (stable_now t).interferes h₃ ht₂
  refine ⟨hC _ _ hi₃ (informed_lease hrow hdue ht₃ hidle₃), fun r w₄ ha _ => ?_⟩
  have href : refOf i w₄.log = some ref := refOf_answers ha
  have hhold := holds_answers ha
  match r with
  | .error e =>
      intro w₅ h₅ _
      have hfailed := storeFailed_answers ha rfl (answers_error ha rfl (by simp))
      refine ⟨stable_idle.interferes h₅ (hhold.trans hidle₃), stable_primed.interferes h₅ ⟨href, .inr ?_⟩⟩
      exact ⟨hhold.trans hidle₃, hfailed⟩
  | .ok count =>
      intro w₅ h₅ _
      by_cases hcount : count = 1
      · subst hcount
        exact stable_primed.interferes h₅ ⟨href, .inl (justTaken_answers ha fun _ => rfl)⟩
      · have hnone : holds i w₄.log = none := by
          rw [hhold, hidle₃]
          simp only [holdAfter]
          split
          · rename_i heq
            exact absurd (Except.ok.inj heq) hcount
          · rfl
        simpa [Attempted, hcount] using (stable_idle.and (stable_refOf _)).interferes h₅ ⟨hnone, href⟩

variable {T : GameWorld → Prop}

omit hC in
/-- What a call knows of a row it leaves to another one. -/
lemma stable_left (hT : Tells C i ref T) : C.Stable i fun w => holds i w.log = none ∧ T w :=
  stable_idle.and hT.stable

lemma sat_bumpAttempts {β : Type} {f : Unit → Program game β} {Q : Except Err β → GameWorld → Prop}
    (hT : Tells C i ref T) (hw : holds i w.log = none ∧ T w)
    (h : ∀ w, holds i w.log = none ∧ T w → Sat C i Q (f ()) w) :
    Sat C i Q (bumpAttempts ref >>= f) w := by
  refine sat_bind (sat_catching (sat_await fun w₁ h₁ hi₁ => ?_))
  have hw₁ := (stable_left hT).interferes h₁ hw
  refine ⟨hC _ _ hi₁ (informed_bump hw₁.1), fun r w₂ ha _ w₃ h₃ _ => ?_⟩
  have hw₃ := (stable_left hT).interferes h₃ ⟨(holds_answers ha).trans hw₁.1, hT.own _ _ _ _ ha hw₁.2⟩
  match r with
  | .ok u => exact h w₃ hw₃
  | .error e => exact fun w₄ h₄ _ => h w₄ ((stable_left hT).interferes h₄ hw₃)

def Claimable (i : ℕ) (ref : RollbackRef) (T : GameWorld → Prop) : Except Err Claimed → GameWorld → Prop
  | .ok a, w =>
      if a.alreadyConfirmed || a.inFlight then holds i w.log = none ∧ T w else Primed i ref w
  | .error _, w => Primed i ref w

omit hC in
lemma claimable_lost (row : Option WalletRollback) (hw : holds i w.log = none ∧ T w) :
    Claimable i ref T (.ok (lostTo row)) w := by
  have hlost : ((lostTo row).alreadyConfirmed || (lostTo row).inFlight) = true := by
    simp [lostTo]
  rw [Claimable, if_pos hlost]
  exact hw

omit hC in
lemma primed_of_failed {e : Err} (h : C.Answers i s w (.error e) w') (hs : s.asksStore)
    (href : s.outboxRef = some ref) (he : e ≠ .p2002) (hhold : holdAfter (holds i w.log) s (.error e) = none) :
    Primed i ref w' := by
  refine ⟨?_, .inr ⟨(holds_answers h).trans hhold, storeFailed_answers h hs he⟩⟩
  rw [refOf_answers h, href]
  rfl

lemma sat_findRollback {β : Type} {f : Option WalletRollback → Program game β}
    {Q : Except Err β → GameWorld → Prop} (hidle : holds i w.log = none)
    (hok : ∀ row w₁ w₂, C.inv w₁ → C.inv w₂ → C.Answers i (.findRollback ref) w₁ (.ok row) w₂ →
      refOf i w₁.log = refOf i w.log → holds i w₂.log = none → Sat C i Q (f row) w₂)
    (herr : ∀ e w, C.inv w → Primed i ref w → Q (.error e) w) :
    Sat C i Q (await (.findRollback ref) >>= f) w := by
  refine sat_await_bind fun w₁ h₁ hi₁ => ?_
  have hidle₁ := stable_idle.interferes h₁ hidle
  refine ⟨hC _ _ hi₁ (informed_find hidle₁), fun r w₂ ha hi₂ => ?_⟩
  match r with
  | .error e =>
      intro w₃ h₃ hi₃
      have hp := primed_of_failed ha rfl rfl (answers_error ha rfl (by simp)) hidle₁
      exact herr e w₃ hi₃ (stable_primed.interferes h₃ hp)
  | .ok row =>
      have href := (stable_refOf (refOf i w.log)).interferes h₁ rfl
      exact hok row w₁ w₂ hi₁ hi₂ ha href ((holds_answers ha).trans hidle₁)

lemma sat_lost {β : Type} {f : Option WalletRollback → Program game β}
    {Q : Except Err β → GameWorld → Prop} (hT : Tells C i ref T) (hidle : holds i w.log = none)
    (href : refOf i w.log = some ref)
    (hok : ∀ row w, holds i w.log = none ∧ T w → Sat C i Q (f row) w)
    (herr : ∀ e w, C.inv w → Primed i ref w → Q (.error e) w) :
    Sat C i Q (await (.findRollback ref) >>= f) w := by
  refine sat_findRollback hC hidle (fun row w₁ w₂ hi₁ hi₂ ha hsame hidle₂ => ?_) herr
  exact hok row w₂ ⟨hidle₂, hT.found _ _ _ hi₁ hi₂ ha (.inl (hsame.trans href))⟩

lemma sat_claimFound {row : WalletRollback} {t : ℕ} (hT : Tells C i ref T) (hrow : row.status ≠ .confirmed)
    (hleased : hasLiveLease row t → T w) (ht : t ≤ w.state.now) (hidle : holds i w.log = none) :
    Sat C i (Claimable i ref T) (do
      let now ← await .dateNow
      if hasLiveLease row now then
        bumpAttempts ref
        pure ⟨false, true⟩
      else if ← acquireLease ref row then pure ⟨false, false⟩
      else
        let after ← await (.findRollback ref)
        bumpAttempts ref
        pure (lostTo after)) w := by
  refine sat_await_bind fun w₁ h₁ hi₁ => ⟨hC _ _ hi₁ (informed_off rfl rfl), fun r w₂ ha _ => ?_⟩
  obtain ⟨rfl, hsame⟩ := answers_dateNow ha
  have hidle₂ : holds i w₂.log = none := (holds_answers ha).trans (stable_idle.interferes h₁ hidle)
  dsimp only
  split
  · rename_i hlive
    have hT₁ := hT.stable.interferes h₁ (hleased (hasLiveLease_of_le hlive ((stable_now t).interferes h₁ ht)))
    refine sat_bumpAttempts hC hT ⟨hidle₂, hT.own _ _ _ _ ha hT₁⟩ fun w₃ h₃ w₄ h₄ _ => ?_
    exact (stable_left hT).interferes h₄ h₃
  · rename_i hlive
    have hdue : row.status = .draining → row.leaseUntil.all (· ≤ w₁.state.now) := by
      intro hst
      cases hl : row.leaseUntil with
      | none => rfl
      | some e => simpa [hasLiveLease, hst, hl] using hlive
    refine sat_bind ((sat_acquireLease hC hrow hdue (congrArg State.now hsame).ge hidle₂).mono ?_)
    rintro (e | taken) w₃ - h₃
    · exact h₃.2
    · cases taken with
      | true => exact fun w₄ h₄ _ => stable_primed.interferes h₄ h₃
      | false =>
          refine sat_lost hC hT h₃.1 h₃.2 (fun row w₄ h₄ => ?_) fun e w₄ _ h₄ => h₄
          exact sat_bumpAttempts hC hT h₄ fun w₅ h₅ w₆ h₆ _ =>
            claimable_lost row ((stable_left hT).interferes h₆ h₅)

lemma sat_insert {k : Key} {amount : Option ℤ} {ends : ℕ} (hT : Tells C i ref T)
    (hidle : holds i w.log = none) :
    Sat C i (Claimable i ref T) (catching (do
        await (.createRollback ref ⟨k, amount, .draining, 0, some ends⟩)
        pure ⟨false, false⟩)
      fun e => if e = .p2002 then lostTo <$> await (.findRollback ref) else raise e) w := by
  refine sat_catching (sat_await_bind fun w₁ h₁ hi₁ => ?_)
  have hidle₁ := stable_idle.interferes h₁ hidle
  refine ⟨hC _ _ hi₁ (informed_create _ hidle₁), fun r w₂ ha _ => ?_⟩
  have href : refOf i w₂.log = some ref := refOf_answers ha
  match r with
  | .ok u =>
      intro w₃ h₃ _
      exact stable_primed.interferes h₃ ⟨href, .inl (justTaken_answers ha fun _ => rfl)⟩
  | .error e =>
      intro w₃ h₃ _
      dsimp only
      split
      · have hidle₃ := stable_idle.interferes h₃ ((holds_answers ha).trans hidle₁)
        have href₃ := (stable_refOf _).interferes h₃ href
        refine sat_lost hC hT hidle₃ href₃ (fun row w₄ h₄ w₅ h₅ _ => ?_) fun e w₄ _ h₄ => h₄
        exact claimable_lost row ((stable_left hT).interferes h₅ h₄)
      · rename_i he
        have hp := primed_of_failed ha rfl rfl he hidle₁
        exact fun w₄ h₄ _ => stable_primed.interferes (h₃.trans h₄) hp

lemma sat_claim (k : Key) (amount : Option ℤ) (hT : Tells C i ref T) (hidle : holds i w.log = none) :
    Sat C i (fun r w => (∃ a, r = .ok a) ∧ Claimable i ref T r w) (claim ref k amount) w := by
  refine sat_catching (Sat.mono (Q := Claimable i ref T) ?_ ?_)
  · refine sat_findRollback hC hidle (fun row w₁ w₂ hi₁ hi₂ ha _ hidle₂ => ?_) fun e w₁ _ h₁ => h₁
    match row with
    | some row =>
        dsimp only
        split
        · rename_i hst
          have hT₂ := hT.found _ _ _ hi₁ hi₂ ha (.inr (.inl (by simpa using hst)))
          exact fun w₃ h₃ _ => (stable_left hT).interferes h₃ ⟨hidle₂, hT₂⟩
        · have hleased (h : hasLiveLease row w₁.state.now) : T w₂ :=
            hT.found _ _ _ hi₁ hi₂ ha (.inr (.inr h))
          exact sat_claimFound hC hT ‹_› hleased (now_answers ha le_rfl) hidle₂
    | none =>
        refine sat_await_bind fun w₃ h₃ hi₃ => ⟨hC _ _ hi₃ (informed_off rfl rfl), fun r w₄ ha _ => ?_⟩
        obtain ⟨rfl, -⟩ := answers_dateNow ha
        exact sat_insert hC hT ((holds_answers ha).trans (stable_idle.interferes h₃ hidle₂))
  · rintro (e | a) w₁ - h₁
    · exact fun w₂ h₂ _ => ⟨⟨_, rfl⟩, stable_primed.interferes h₂ h₁⟩
    · exact ⟨⟨a, rfl⟩, h₁⟩

omit hC in
lemma closing_answers {op b : ℕ} {k : Key} {r : Except Err Unit} (hp : Primed i ref w)
    (ha : C.Answers i (.operatorRollback op k b) w r w') : Closing i ref r.isOk w' := by
  obtain ⟨before, after, hlast⟩ := lastBy_answers ha
  refine ⟨(refOf_answers ha).trans hp.1, ?_⟩
  rw [hlast]
  rfl

lemma sat_confirm {a : Bool} (ha : a = true) (hT : Tells C i ref T) (h : Closing i ref a w) :
    Sat C i (fun r w => r = .ok () ∧ holds i w.log = none ∧ T w) (confirm ref) w := by
  subst ha
  refine sat_catching (sat_await_bind fun w₁ h₁ hi₁ => ?_)
  have hcl := stable_closing.interferes h₁ h
  refine ⟨hC _ _ hi₁ (informed_confirm hcl), fun r w₂ ha _ => ?_⟩
  have hw₂ : holds i w₂.log = none ∧ T w₂ := ⟨holds_answers ha, hT.own _ _ _ _ ha (hT.accepted _ hi₁ hcl)⟩
  cases r with
  | ok n => exact fun w₃ h₃ _ => ⟨rfl, (stable_left hT).interferes h₃ hw₂⟩
  | error e => exact fun w₃ h₃ _ w₄ h₄ _ => ⟨rfl, (stable_left hT).interferes (h₃.trans h₄) hw₂⟩

lemma sat_recordEmitFailure {a : Bool} (ha : a = false) (h : Closing i ref a w) :
    Sat C i (fun r w => r = .ok () ∧ holds i w.log = none) (recordEmitFailure ref) w := by
  subst ha
  refine sat_catching (sat_await_bind fun w₁ h₁ hi₁ =>
    ⟨hC _ _ hi₁ (informed_release (stable_closing.interferes h₁ h)), fun r w₂ ha _ => ?_⟩)
  have hidle : holds i w₂.log = none := holds_answers ha
  cases r with
  | ok n => exact fun w₃ h₃ _ => ⟨rfl, stable_idle.interferes h₃ hidle⟩
  | error e => exact fun w₃ h₃ _ w₄ h₄ _ => ⟨rfl, stable_idle.interferes (h₃.trans h₄) hidle⟩

lemma sat_rollbackOnce (s : OperatorSession) (k : Key) (b : ℕ) (reason : Intent) (propagate : Bool)
    (amount : Option ℤ) (hT : Tells C i ⟨s.operatorId, b, reason⟩ T) (hidle : holds i w.log = none) :
    Sat C i (fun r w => holds i w.log = none ∧ (propagate → ∀ u, r = .ok u → T w))
      (rollbackOnce s k b reason propagate amount) w := by
  refine sat_bind ((sat_claim hC k amount hT hidle).mono ?_)
  rintro r w₁ hi₁ ⟨⟨a, rfl⟩, h₁⟩
  dsimp only
  by_cases hskip : (a.alreadyConfirmed || a.inFlight) = true
  · rw [Claimable, if_pos hskip] at h₁
    rw [if_pos hskip]
    intro w₂ h₂ _
    have hw₂ := (stable_left hT).interferes h₂ h₁
    exact ⟨hw₂.1, fun _ _ _ => hw₂.2⟩
  · rw [Claimable, if_neg hskip] at h₁
    rw [if_neg hskip]
    refine sat_catching (sat_await_bind fun w₂ h₂ hi₂ => ?_)
    have hp := stable_primed.interferes h₂ h₁
    refine ⟨hC _ _ hi₂ (informed_emit rfl rfl hp), fun r w₃ ha _ => ?_⟩
    have hclosing := closing_answers hp ha
    match r with
    | .ok u =>
        refine (sat_confirm hC rfl hT hclosing).mono ?_
        rintro r w₄ - ⟨rfl, h₄⟩
        exact ⟨h₄.1, fun _ _ _ => h₄.2⟩
    | .error e =>
        intro w₄ h₄ hi₄
        refine sat_bind ((sat_recordEmitFailure hC rfl (stable_closing.interferes h₄ hclosing)).mono ?_)
        rintro r w₅ hi₅ ⟨rfl, h₅⟩
        dsimp only
        split
        · exact fun w₆ h₆ _ => ⟨stable_idle.interferes h₆ h₅, fun _ _ h => by cases h⟩
        · exact fun w₆ h₆ _ => ⟨stable_idle.interferes h₆ h₅, fun h => absurd h ‹_›⟩

lemma idle_rollbackOnce (s : OperatorSession) (k : Key) (b : ℕ) (reason : Intent) (propagate : Bool)
    (amount : Option ℤ) :
    Keeps C i (fun w => holds i w.log = none) (rollbackOnce s k b reason propagate amount) :=
  fun _ _ hidle =>
    (sat_rollbackOnce hC s k b reason propagate amount tells_nothing hidle).mono fun _ _ _ h => h.1

omit hC in
lemma owed_of_found {row : WalletRollback} {t : ℕ} (h : row.owed t) :
    row.status ≠ .confirmed ∧ (row.status = .draining → row.leaseUntil.all (· ≤ t)) := by
  simp only [WalletRollback.owed, Bool.or_eq_true, Bool.and_eq_true, decide_eq_true_eq] at h
  rcases h with hst | ⟨hst, hlease⟩
  · simp [hst]
  · refine ⟨by simp [hst], fun _ => ?_⟩
    cases hl : row.leaseUntil with
    | none => rfl
    | some e =>
        rw [hl] at hlease
        simp only [Option.all_some, decide_eq_true_eq] at hlease ⊢
        exact hlease.le

lemma sat_drainOne {x : RollbackRef × WalletRollback} {t : ℕ} (hx : x.2.owed t) (n : ℕ)
    (ht : t ≤ w.state.now) (hidle : holds i w.log = none) :
    Sat C i (fun _ w => holds i w.log = none) (drainOne n x) w := by
  obtain ⟨hst, hdue⟩ := owed_of_found hx
  have hacquire : Sat C i (fun r w => r = .ok true ∧ Primed i x.1 w ∨
      r = .ok false ∧ holds i w.log = none) ((acquireLease x.1 x.2).catching fun _ => pure false) w := by
    refine sat_catching ((sat_acquireLease hC hst hdue ht hidle).mono ?_)
    rintro (e | taken) w₁ - h₁
    · exact fun w₂ h₂ _ => .inr ⟨rfl, stable_idle.interferes h₂ h₁.1⟩
    · cases taken with
      | true => exact .inl ⟨rfl, h₁⟩
      | false => exact .inr ⟨rfl, h₁.1⟩
  refine sat_bind (hacquire.mono ?_)
  rintro r w₁ - (⟨rfl, h₁⟩ | ⟨rfl, h₁⟩)
  · refine sat_catching (sat_await_bind fun w₂ h₂ hi₂ => ?_)
    have hp := stable_primed.interferes h₂ h₁
    refine ⟨hC _ _ hi₂ (informed_emit rfl rfl hp), fun r w₃ ha _ => ?_⟩
    have hclosing := closing_answers hp ha
    match r with
    | .ok u =>
        refine sat_bind ((sat_confirm hC rfl tells_nothing hclosing).mono ?_)
        rintro r w₄ - ⟨rfl, h₄⟩
        exact fun w₅ h₅ _ => stable_idle.interferes h₅ h₄.1
    | .error e =>
        intro w₄ h₄ hi₄
        refine sat_bind (sat_catching (sat_await fun w₅ h₅ hi₅ => ?_))
        have hcl := stable_closing.interferes (h₄.trans h₅) hclosing
        refine ⟨hC _ _ hi₅ (informed_fail hcl), fun r w₆ ha _ => ?_⟩
        have hnone : holds i w₆.log = none := holds_answers ha
        intro w₇ h₇ _
        cases r with
        | ok u => exact fun w₈ h₈ _ => stable_idle.interferes (h₇.trans h₈) hnone
        | error e =>
            exact fun w₈ h₈ _ w₉ h₉ _ => stable_idle.interferes ((h₇.trans h₈).trans h₉) hnone
  · exact fun w₂ h₂ _ => stable_idle.interferes h₂ h₁

lemma idle_drainRows {rows : List (RollbackRef × WalletRollback)} {t : ℕ}
    (hrows : ∀ x ∈ rows, x.2.owed t) (n : ℕ) :
    Keeps C i (fun w => holds i w.log = none ∧ t ≤ w.state.now) (Program.loop drainOne n rows) := by
  refine keeps_loop (stable_idle.and (stable_now t)) n fun x hx n w _ hw => ?_
  exact (sat_drainOne hC (hrows x hx) n hw.2 hw.1).frame (stable_now t)
    (fun _ _ _ _ ha => now_answers ha) hw.2

end Calls

@[reducible] def Stmt.endsVoid : Stmt → Bool
  | updateBets _ d => d.status = some .voided
  | _ => false

@[reducible] def Stmt.offOutbox (s : Stmt) : Bool := !(s.outboxRef.isSome || s.emits || s.endsVoid)

@[reducible] def Stmt.quiet (s : Stmt) : Bool := s.offOutbox && s.offEngine

@[reducible] def Intent.ofVoid : Intent → Bool
  | voidReclaim | voidRefund => true
  | _ => false

lemma Stmt.offOutbox_of_plain (h : s.plain) : s.offOutbox := by
  cases s <;> simp_all [Stmt.plain]

lemma outboxRef_of_off (hs : s.offOutbox) : s.outboxRef = none := by
  simp only [Stmt.offOutbox, Bool.not_eq_true', Bool.or_eq_false_iff] at hs
  simpa using hs.1.1

lemma emits_of_off (hs : s.offOutbox) : s.emits = false := by
  simp only [Stmt.offOutbox, Bool.not_eq_true', Bool.or_eq_false_iff] at hs
  exact hs.1.2

lemma holdAfter_off (hs : s.outboxRef = none) (he : s.emits = false) (h : Option Hold) :
    holdAfter h s r = h := by
  cases s <;> simp only [Stmt.outboxRef, Stmt.emits, reduceCtorEq, Bool.true_eq_false] at hs he <;> rfl

section Drain

variable (hC : ∀ s w, C.inv w → s.offOutbox → C.pre i s w)
include hC

lemma sat_drainPending (mode : Bool) (l : ℕ) (hrows : ∀ rows t w₁ w₂, C.inv w₁ → C.inv w₂ →
      C.Answers i (.findOwedRollbacks t l) w₁ (.ok rows) w₂ → holds i w₂.log = none ∧ t ≤ w₂.state.now →
      Sat C i (fun _ w => holds i w.log = none) (Program.loop drainOne 0 rows) w₂) :
    Keeps C i (fun w => holds i w.log = none) (drainPending mode l) := by
  cases mode with
  | false => exact keeps_ret stable_idle 0
  | true =>
      intro w _ hidle
      refine sat_bind (sat_catching (sat_await_bind fun w₁ h₁ hi₁ =>
        ⟨hC _ _ hi₁ rfl, fun r w₂ ha _ => ?_⟩))
      obtain ⟨rfl, hsame⟩ := answers_dateNow ha
      have hidle₂ : holds i w₂.log = none := (holds_answers ha).trans (stable_idle.interferes h₁ hidle)
      have ht₂ : w₁.state.now ≤ w₂.state.now := (congrArg State.now hsame).ge
      refine sat_await fun w₃ h₃ hi₃ => ⟨hC _ _ hi₃ rfl, fun r w₄ ha hi₄ => ?_⟩
      have hidle₄ : holds i w₄.log = none := (holds_answers ha).trans (stable_idle.interferes h₃ hidle₂)
      have ht₄ := now_answers ha ((stable_now _).interferes h₃ ht₂)
      intro w₅ h₅ hi₅
      match r with
      | .error e =>
          intro w₆ h₆ _ w₇ h₇ _
          exact stable_idle.interferes ((h₅.trans h₆).trans h₇) hidle₄
      | .ok rows => exact (hrows rows _ w₃ w₄ hi₃ hi₄ ha ⟨hidle₄, ht₄⟩).interferes h₅

end Drain

lemma idle_drainPending (hC : ∀ s w, C.inv w → Informed i s w → C.pre i s w) (mode : Bool) (l : ℕ) :
    Keeps C i (fun w => holds i w.log = none) (drainPending mode l) := by
  refine sat_drainPending (fun s w hi hs => hC s w hi (informed_off (outboxRef_of_off hs) (emits_of_off hs)))
    mode l fun rows t w₁ w₂ _ hi₂ ha hw₂ => ?_
  have hrows := (answers_findOwedRollbacks ha).2
  have hloop := idle_drainRows hC (fun x hx => (hrows x.1 x.2 hx).2) 0 w₂ hi₂ hw₂
  exact hloop.mono fun _ _ _ h => h.1

/-- What a void does with the settled bet that it has found. -/
def voidFound (P : Params) (b : ℕ) (bet : Bet) : Program game VoidResult := do
  let claim ← BetsService.claimVoid b bet.status
  if claim = 0 then raise .betStateChanged
  else
    BetsService.performVoidReversals P b bet
    let _ ← await (.finishVoid b)
    pure ⟨.voided, true, bet.amount, if 0 < bet.payout then bet.payout else 0⟩

lemma keeps_voidBet {J : GameWorld → Prop} {b : ℕ} (op : ℕ) (hJ : C.Stable i J)
    (hfind : Keeps C i J (await (.findBet b)))
    (hvoid : ∀ bet w, C.inv w → J w → w.state.bets.row b = some bet →
      bet.status = .voiding ∨ bet.status = .busted ∨ bet.status = .cashedOut →
      Sat C i (fun _ => J) (voidFound P b bet) w) : Keeps C i J (BetsService.voidBet P op b) := by
  intro w hi hw w₁ h₁ hi₁
  obtain ⟨hpre, hk⟩ := hfind w hi hw w₁ h₁ hi₁
  refine ⟨hpre, fun r w₂ ha hi₂ => ?_⟩
  have hr := hk r w₂ ha hi₂
  rcases r with e | found
  · exact hr
  have hw₂ : J w₂ := hr w₂ .refl hi₂
  rcases found with - | bet
  · exact keeps_raise hJ _ w₂ hi₂ hw₂
  obtain ⟨o, a, -, hexec, rfl⟩ := ha
  obtain ⟨hrow, rfl⟩ : w₁.state.bets.row b = some bet ∧ w₁.state = a := by
    simpa [perform] using perform_of_ok hexec rfl
  change Sat C i _ (ite _ _ _) _
  split
  · exact keeps_raise hJ _ _ hi₂ hw₂
  split
  · exact keeps_ret hJ _ _ hi₂ hw₂
  split
  · exact keeps_ret hJ _ _ hi₂ hw₂
  split
  · exact keeps_raise hJ _ _ hi₂ hw₂
  split
  · exact keeps_raise hJ _ _ hi₂ hw₂
  · refine hvoid bet _ hi₂ hw₂ hrow ?_
    cases h : bet.status <;> simp_all

lemma await_quiet {s : Stmt} (h : s.quiet) : (await s).Uses fun s : Stmt => s.quiet := await_uses h

section Parts

def RollsBack (K : (α : Type) → Program game α → Prop) (k : Key) (b : ℕ) : Prop :=
  ∀ s reason propagate amount, Intent.ofVoid reason = false → K _ (rollbackOnce s k b reason propagate amount)

variable {K : (α : Type) → Program game α → Prop} (hK : Compositional K)
  (hoff : ∀ {α : Type} {p : Program game α}, p.Uses (fun s : Stmt => s.quiet) → K α p)
include hK hoff

lemma moveBet_built (s : OperatorSession) (req : OperatorRequest) (n : ℕ)
    (honce : RollsBack K req.transactionId req.betId) : K _ (moveBet s req n) := by
  induction n with
  | zero => exact hK.raise _
  | succ n ih =>
      refine hK.catching (hoff (await_quiet rfl)) fun e => ?_
      split
      · exact hK.raise _
      · split
        · exact hK.bind (honce _ _ _ _ rfl) fun _ => hK.raise _
        · split
          · exact hK.bind (honce _ _ _ _ rfl) fun _ => hK.raise _
          · exact ih

lemma moveWin_built (req : OperatorRequest) (n : ℕ) : K _ (moveWin req n) := by
  induction n with
  | zero => exact hK.raise _
  | succ n ih =>
      refine hK.catching (hoff (await_quiet rfl)) fun e => ?_
      split
      · exact hK.raise _
      · exact ih

lemma ledger_debit_built (w : ℕ) (a : ℤ) (t : LedgerType) (k : Key) (b : ℕ) :
    K _ (LedgerService.debit w a t k b) := by
  unfold LedgerService.debit
  split
  · exact hK.raise _
  · exact hoff (await_quiet rfl)

lemma ledger_credit_built (w : ℕ) (a : ℤ) (t : LedgerType) (k : Key) (b : ℕ) :
    K _ (LedgerService.credit w a t k b) := by
  unfold LedgerService.credit
  split
  · exact hK.raise _
  · exact hoff (await_quiet rfl)

lemma debit_built (w : ℕ) (a : ℤ) (t : LedgerType) {k : Key} {b : ℕ} (honce : RollsBack K k b) :
    K _ (P.wallet.debit w a t k b) := by
  unfold Params.wallet
  split
  · refine hK.bind (hoff (await_quiet rfl)) fun demo => ?_
    split
    · exact ledger_debit_built hK hoff w a t k b
    · exact hK.bind (hoff (await_quiet rfl)) fun s => moveBet_built hK hoff s ⟨s.operatorId, w, a, k, b⟩ _ honce
  · exact ledger_debit_built hK hoff w a t k b

lemma credit_built (w : ℕ) (a : ℤ) (t : LedgerType) (k : Key) (b : ℕ) :
    K _ (P.wallet.credit w a t k b) := by
  unfold Params.wallet
  split
  · refine hK.bind (hoff (await_quiet rfl)) fun demo => ?_
    split
    · exact ledger_credit_built hK hoff w a t k b
    · exact hK.bind (hoff (await_quiet rfl)) fun s => moveWin_built hK hoff _ _
  · exact ledger_credit_built hK hoff w a t k b

lemma rollback_built (w : ℕ) {k : Key} {b : ℕ} (honce : RollsBack K k b) : K _ (P.wallet.rollback w k b) := by
  unfold Params.wallet
  split
  · refine hK.bind (hoff (await_quiet rfl)) fun demo => ?_
    split
    · exact hK.ret ()
    · exact hK.bind (hoff (await_quiet rfl)) fun s => honce _ _ _ _ rfl
  · exact hK.ret ()

lemma ledger_reverse_built (w : ℕ) (p : ReverseParams) : K _ (LedgerService.reverse w p) := by
  unfold LedgerService.reverse
  split
  · exact hK.bind (ledger_credit_built hK hoff _ _ _ _ _) fun _ => hK.ret ()
  · exact hK.bind (ledger_debit_built hK hoff _ _ _ _ _) fun _ => hK.ret ()

lemma reverse_built {w : ℕ} {p : ReverseParams} (h : K _ (SeamlessOperatorWallet.reverse w p)) :
    K _ (P.wallet.reverse w p) := by
  unfold Params.wallet
  split
  · refine hK.bind (hoff (await_quiet rfl)) fun demo => ?_
    split
    · exact ledger_reverse_built hK hoff w p
    · exact h
  · exact ledger_reverse_built hK hoff w p

lemma restartRefund_built (w : ℕ) (b : ℕ × Bet) (honce : RollsBack K (.debit b.2.slot) b.1) :
    K _ (P.wallet.reverse w
      ⟨.debit b.2.slot, .restartRefund b.1, b.2.amount, .debit, .refund, b.1, some .restartRefund⟩) :=
  reverse_built hK hoff (hK.bind (hoff (await_quiet rfl)) fun _ => honce _ _ _ _ rfl)

lemma debitAndActivate_built (slot : Slot) (w : ℕ × Wallet) (amt : ℤ) (b : ℕ)
    (honce : RollsBack K (.debit slot) b) : K _ (BetsService.debitAndActivate P slot w amt b) := by
  have hactivate (tx : WalletTxResult) (ccy n : ℕ) : K _ (BetsService.activate b tx ccy n) := by
    induction n with
    | zero => exact hK.ret _
    | succ n ih =>
        refine hK.bind (hK.attempt (hoff (await_quiet rfl))) fun r => ?_
        split
        · split <;> exact hK.ret _
        · split
          · exact hK.bind (hK.attempt (hoff (await_quiet rfl))) fun _ => hK.ret _
          · exact ih
  refine hK.bind (hK.attempt (debit_built hK hoff _ _ _ honce)) fun r => ?_
  split
  · exact hK.bind (hK.attempt (hoff (await_quiet rfl))) fun _ => hK.ret _
  · exact hactivate _ _ _

lemma reserve_built (a : PlaceBet) (slot : Slot) (w : ℕ × Wallet) (amt : ℤ) :
    K _ (BetsService.reserve P a slot w amt) := by
  have hcaps (w : ℕ) (amt : ℤ) (bets : List (ℕ × Bet)) : K _ (BetsService.sessionCaps a w amt bets) := by
    unfold BetsService.sessionCaps
    split
    · exact hK.ret _
    · split
      · exact hK.ret _
      · refine hK.bind (hK.bind (hoff (await_quiet rfl)) fun _ => hK.ret _) fun acc => ?_
        dsimp only
        split
        · exact hK.raise _
        · split
          · exact hK.raise _
          · exact hK.ret _
  refine hK.bind (hoff (await_quiet rfl)) fun _ => hK.catching ?_ fun e =>
    hK.bind (hoff (await_quiet rfl)) fun _ => hK.raise _
  refine hK.bind (hoff (await_quiet rfl)) fun bets => ?_
  dsimp only
  split
  · exact hK.raise _
  · exact hK.bind (hcaps _ _ _) fun _ => hoff (await_quiet rfl)

def Placing (P : Params) (slot : Slot) (w : ℕ × Wallet) (amt : ℤ) (f : Except Err ℕ → Program game BetResult) :
    Prop :=
  (∀ e, ∃ r, f (.error e) = pure r) ∧ ∀ b, f (.ok b) = BetsService.debitAndActivate P slot w amt b

lemma placing_built {a : PlaceBet} {slot : Slot} {w : ℕ × Wallet} {amt : ℤ}
    {f : Except Err ℕ → Program game BetResult} (hf : Placing P slot w amt f)
    (honce : ∀ b, RollsBack K (.debit slot) b) : K _ ((BetsService.reserve P a slot w amt).attempt >>= f) := by
  refine hK.bind (hK.attempt (reserve_built hK hoff a slot w amt)) fun r => ?_
  cases r with
  | error e =>
      obtain ⟨x, hx⟩ := hf.1 e
      rw [hx]
      exact hK.ret x
  | ok b =>
      rw [hf.2 b]
      exact debitAndActivate_built hK hoff slot w amt b (honce b)

lemma placeBet_built (a : PlaceBet) (hplace : ∀ slot w amt f, Placing P slot w amt f →
    K _ ((BetsService.reserve P a slot w amt).attempt >>= f)) : K _ (BetsService.placeBet P a) := by
  have hrg : K _ (BetsService.rgGate a) := by
    unfold BetsService.rgGate
    split
    · exact hK.ret _
    · split
      · exact hK.ret _
      · split
        · exact hK.ret _
        · exact hK.bind (hoff (await_quiet rfl)) fun _ => hK.ret _
  have hwallet : K _ (BetsService.wallet a.userId a.walletId) := by
    unfold BetsService.wallet
    split
    · refine hK.bind (hoff (await_quiet rfl)) fun w => ?_
      split
      · exact hK.raise _
      · exact hK.ret _
    · exact hoff (await_quiet rfl)
  refine hK.bind (hoff (await_quiet rfl)) fun state => ?_
  split
  · exact hK.ret _
  · dsimp only
    split
    · exact hK.ret _
    · split
      · exact hK.ret _
      · refine hK.bind hrg fun reason => ?_
        split
        · exact hK.ret _
        · refine hK.bind (hoff (await_quiet rfl)) fun existing => ?_
          split
          · exact hK.ret _
          · refine hK.bind (hK.attempt hwallet) fun w => ?_
            split
            · exact hK.ret _
            · exact hplace _ _ _ _ ⟨fun e => ⟨_, rfl⟩, fun b => rfl⟩

lemma cancelBet_built (n u : ℕ) (p : Panel) : K _ (BetsService.cancelBet P n u p) := by
  refine hK.bind (hoff (await_quiet rfl)) fun state => ?_
  split
  · exact hK.ret _
  · split
    · exact hK.ret _
    · refine hK.bind (hoff (await_quiet rfl)) fun slot => ?_
      split
      · exact hK.ret _
      · refine hK.bind (hoff (await_quiet rfl)) fun wallet => ?_
        split
        · exact hK.ret _
        · refine hK.bind (hoff (await_quiet rfl)) fun claim => ?_
          split
          · exact hK.ret _
          · exact hK.bind (credit_built hK hoff _ _ _ _ _) fun _ => hK.ret _

lemma cashOut_built (n u : ℕ) (p : Panel) (m : Option ℕ) : K _ (BetsService.cashOut P n u p m) := by
  have hpay (id : ℕ) (bet : Bet) (mult ccy : ℕ) : K _ (BetsService.claimWin P id bet mult ccy) := by
    refine hK.bind (hoff (await_quiet rfl)) fun claim => ?_
    split
    · exact hK.ret _
    · refine hK.bind (hK.attempt (credit_built hK hoff _ _ _ _ _)) fun r => ?_
      split
      · exact hK.bind (hoff (await_quiet rfl)) fun _ => hK.ret _
      · exact hK.bind (hoff (await_quiet rfl)) fun _ => hK.bind (hoff (await_quiet rfl)) fun _ => hK.ret _
  have hmult : K _ (BetsService.multiplierAt n m) := by
    cases m with
    | none => exact hoff (await_quiet rfl)
    | some m => exact hK.ret m
  refine hK.bind (hoff (await_quiet rfl)) fun state => ?_
  split
  · exact hK.ret _
  · split
    · exact hK.ret _
    · refine hK.bind hmult fun mult => hK.bind (hoff (await_quiet rfl)) fun slot => ?_
      split
      · exact hK.ret _
      · refine hK.bind (hoff (await_quiet rfl)) fun wallet => hK.bind (hoff (await_quiet rfl)) fun round => ?_
        split
        · exact hK.raise _
        · split
          · exact hK.ret _
          · split
            · exact hK.ret _
            · exact hpay _ _ _ _

omit hK in
lemma settleRound_built (r : ℕ) : K _ (BetsService.settleRound r) := by
  refine hoff ?_
  refine uses_compositional.bind (await_quiet rfl) fun bets => ?_
  split
  · trivial
  · exact uses_compositional.bind (await_quiet rfl) fun _ => trivial

lemma reconcilePendingPayouts_built (l : ℕ) : K _ (BetsService.reconcilePendingPayouts P l) := by
  refine hK.bind (hoff (await_quiet rfl)) fun _ => hK.loop _ fun _ _ => hK.bind (hK.attempt ?_) fun _ => hK.ret _
  refine hK.bind (credit_built hK hoff _ _ _ _ _) fun _ => hK.bind (hoff (await_quiet rfl)) fun count => ?_
  split
  · exact hK.ret _
  · exact hK.bind (hoff (await_quiet rfl)) fun _ => hK.ret _

lemma refundOne_built (x : ℕ × Bet) (honce : RollsBack K (.debit x.2.slot) x.1) :
    K _ (GameEngineService.refundOne P () x) :=
  hK.catching (hK.bind (restartRefund_built hK hoff _ x honce) fun _ => hoff (await_quiet rfl)) fun _ => hK.ret ()

lemma closeAndRefundRound_built (r : ℕ) (honce : ∀ k b, RollsBack K k b) :
    K _ (GameEngineService.closeAndRefundRound P r) :=
  hK.bind (hoff (await_quiet rfl)) fun _ => hK.bind (hK.loop _ fun _ x => refundOne_built hK hoff x (honce _ _))
    fun _ => hoff (await_quiet rfl)

lemma cutoffOf_built (t : ℕ) : K _ (GameEngineService.cutoffOf t) := by
  unfold GameEngineService.cutoffOf
  split
  · exact hK.bind (hoff (await_quiet rfl)) fun _ => hK.ret _
  · exact hK.ret _

lemma recoverOne_built (n : ℕ) (x : ℕ × Bet) (honce : RollsBack K (.debit x.2.slot) x.1) :
    K _ (GameEngineService.recoverOne P n x) := by
  have hreverse : K _ (GameEngineService.reverseSlot P x) := by
    refine hK.bind (rollback_built hK hoff _ honce) fun _ => hK.bind (hoff (await_quiet rfl)) fun row => ?_
    split
    · exact hK.bind (credit_built hK hoff _ _ _ _ _) fun _ => hoff (await_quiet rfl)
    · exact hK.bind (hK.attempt (hoff (await_quiet rfl))) fun _ => hK.ret ()
  refine hK.bind ?_ fun claimed => ?_
  · unfold GameEngineService.claimSlot
    split
    · exact hoff (await_quiet rfl)
    · exact hK.ret _
  · split
    · exact hK.ret _
    · refine hK.bind (hK.attempt hreverse) fun r => ?_
      split <;> exact hK.ret _

lemma recoverReservingBets_built (t : ℕ) (honce : ∀ k b, RollsBack K k b) :
    K _ (GameEngineService.recoverReservingBets P t) :=
  hK.bind (cutoffOf_built hK hoff t) fun _ => hK.bind (hoff (await_quiet rfl)) fun _ =>
    hK.loop _ fun n x => recoverOne_built hK hoff n x (honce _ _)

lemma healOne_built (n : ℕ) (x : ℕ × Bet) (honce : RollsBack K (.debit x.2.slot) x.1) :
    K _ (GameEngineService.healOne P n x) :=
  hK.bind (hK.attempt (hK.bind (restartRefund_built hK hoff _ x honce) fun _ => hoff (await_quiet rfl)))
    fun _ => hK.ret _

lemma recoverStrandedActiveBets_built (t : ℕ) (honce : ∀ k b, RollsBack K k b) :
    K _ (GameEngineService.recoverStrandedActiveBets P t) :=
  hK.bind (hoff (await_quiet rfl)) fun _ => hK.bind (hoff (await_quiet rfl)) fun _ =>
    hK.loop _ fun n x => healOne_built hK hoff n x (honce _ _)

/-- The service is built from rollbacks, drains, voids, and quiet statements. -/
lemma gameParts_of_reversals (honce : ∀ k b, RollsBack K k b) (hvoid : ∀ o b, K _ (BetsService.voidBet P o b))
    (hreconcile : ∀ l, K _ (BetsService.reconcileVoidingBets P l))
    (hdrain : ∀ l, K _ (drainPending P.operatorMode l)) : GameParts P K where
  aside hp := hoff (hp.mono fun _ hs => Bool.and_eq_true_iff.2 ⟨Stmt.offOutbox_of_plain hs.1, hs.2⟩)
  placeBet a _ := placeBet_built hK hoff a fun _ _ _ _ hf => placing_built hK hoff hf fun b => honce _ b
  cancelBet := cancelBet_built hK hoff
  cashOut := cashOut_built hK hoff
  settleRound := settleRound_built hoff
  voidBet := hvoid
  reconcileVoidingBets := hreconcile
  reconcilePendingPayouts := reconcilePendingPayouts_built hK hoff
  closeAndRefundRound r := closeAndRefundRound_built hK hoff r honce
  recoverReservingBets t := recoverReservingBets_built hK hoff t honce
  recoverStrandedActiveBets t := recoverStrandedActiveBets_built hK hoff t honce
  drainPending := hdrain

section Voids

variable (hend : ∀ id, K _ (await (.finishVoid id)))
include hend

lemma voidBet_built (hperform : ∀ id b, K _ (BetsService.performVoidReversals P id b)) (o b : ℕ) :
    K _ (BetsService.voidBet P o b) := by
  refine hK.bind (hoff (await_quiet rfl)) fun row => ?_
  split
  · exact hK.raise _
  · split
    · exact hK.raise _
    · split
      · exact hK.ret _
      · split
        · exact hK.ret _
        · split
          · exact hK.raise _
          · split
            · exact hK.raise _
            · refine hK.bind ?_ fun claim => ?_
              · unfold BetsService.claimVoid
                split
                · exact hK.ret _
                · exact hoff (await_quiet rfl)
              · split
                · exact hK.raise _
                · exact hK.bind (hperform _ _) fun _ => hK.bind (hend _) fun _ => hK.ret _

lemma reconcileVoidingBets_built (hperform : ∀ id b, K _ (BetsService.performVoidReversals P id b))
    (l : ℕ) : K _ (BetsService.reconcileVoidingBets P l) :=
  hK.bind (hoff (await_quiet rfl)) fun _ => hK.loop _ fun _ _ =>
    hK.bind (hK.attempt (hK.bind (hperform _ _) fun _ => hend _)) fun _ => hK.ret _

omit hend in
lemma performVoidReversals_built (id : ℕ) (b : Bet)
    (hreclaim : ∀ s amount, K _ (rollbackOnce s (.payout id) id .voidReclaim true amount))
    (hrefund : ∀ s amount, K _ (rollbackOnce s (.debit b.slot) id .voidRefund true amount)) :
    K _ (BetsService.performVoidReversals P id b) := by
  have hreclaim : K _ (P.wallet.reverse b.walletId ⟨.payout id, .voidReclaim id, b.payout, .credit,
      .payoutCredit, id, none⟩) :=
    reverse_built hK hoff (hK.bind (hoff (await_quiet rfl)) fun s => hreclaim s _)
  have hrefund : K _ (P.wallet.reverse b.walletId ⟨.debit b.slot, .voidRefund id, b.amount, .debit, .refund,
      id, none⟩) :=
    reverse_built hK hoff (hK.bind (hoff (await_quiet rfl)) fun s => hrefund s _)
  unfold BetsService.performVoidReversals
  split
  · exact hK.bind hreclaim fun _ => hrefund
  · exact hrefund

lemma gameParts_of_all
    (hall : ∀ s k b reason propagate amount, K _ (rollbackOnce s k b reason propagate amount))
    (hdrain : ∀ l, K _ (drainPending P.operatorMode l)) : GameParts P K := by
  have honce (k : Key) (b : ℕ) : RollsBack K k b := fun s reason propagate amount _ =>
    hall s k b reason propagate amount
  have hperform (id : ℕ) (b : Bet) : K _ (BetsService.performVoidReversals P id b) :=
    performVoidReversals_built hK hoff id b (fun _ _ => hall _ _ _ _ _ _) fun _ _ => hall _ _ _ _ _ _
  exact gameParts_of_reversals hK hoff honce (voidBet_built hK hoff hend hperform)
    (reconcileVoidingBets_built hK hoff hend hperform) hdrain

end Voids

end Parts

section Off

variable {K : (α : Type) → Program game α → Prop} (hK : Compositional K)
  (hoff : ∀ {α : Type} {p : Program game α}, p.Uses (fun s : Stmt => s.offOutbox) → K α p)
include hK hoff

omit hK in
lemma quiet_off {α : Type} {p : Program game α} (hp : p.Uses fun s : Stmt => s.quiet) : K α p :=
  hoff (hp.mono fun _ hs => (Bool.and_eq_true_iff.1 hs).1)

lemma parts_of_reversals
    (honce : ∀ s k b reason propagate amount, reason.ofVoid = false →
      K _ (rollbackOnce s k b reason propagate amount))
    (hvoid : ∀ o b, K _ (BetsService.voidBet P o b))
    (hreconcile : ∀ l, K _ (BetsService.reconcileVoidingBets P l))
    (hdrain : ∀ l, K _ (drainPending P.operatorMode l)) : Parts P K where
  __ := gameParts_of_reversals hK (quiet_off hoff) (fun k b s reason p a => honce s k b reason p a) hvoid
    hreconcile hdrain
  plain hp := hoff (hp.mono fun _ => Stmt.offOutbox_of_plain)

lemma parts_of_all (hend : ∀ id, K _ (await (.finishVoid id)))
    (hall : ∀ s k b reason propagate amount, K _ (rollbackOnce s k b reason propagate amount))
    (hdrain : ∀ l, K _ (drainPending P.operatorMode l)) : Parts P K where
  __ := gameParts_of_all hK (quiet_off hoff) hend hall hdrain
  plain hp := hoff (hp.mono fun _ => Stmt.offOutbox_of_plain)

end Off

section Uses

attribute [local simp] Program.await Option.forall except_forall

lemma onOutbox_of_off (hs : s.writesRollbacks = false) : s.OnOutbox := by
  intro hw
  rw [hs] at hw
  cases hw

lemma writesRollbacks_of_off (hs : s.outboxRef = none) : s.writesRollbacks = false := by
  cases s <;> simp_all

lemma acquireLease_onOutbox (ref : RollbackRef) (row : WalletRollback) :
    (acquireLease ref row).Uses Stmt.OnOutbox := by
  have hlease (ends : ℕ) : (Stmt.leaseRow ref (row.status, row.leaseUntil) ends).OnOutbox :=
    fun _ => .lease ref _ ends
  simp [acquireLease, hlease, onOutbox_of_off]

lemma confirm_onOutbox (ref : RollbackRef) : (confirm ref).Uses Stmt.OnOutbox := by
  have hconfirm : (Stmt.confirmRow ref).OnOutbox := fun _ => .confirm ref
  simp [confirm, hconfirm]

lemma rollbackOnce_onOutbox (s : OperatorSession) (k : Key) (b : ℕ) (reason : Intent)
    (propagate : Bool) (amount : Option ℤ) :
    (rollbackOnce s k b reason propagate amount).Uses Stmt.OnOutbox := by
  have hbump (ref : RollbackRef) : (bumpAttempts ref).Uses Stmt.OnOutbox := by
    have hrow : (Stmt.updateRollback ref { attempts := (· + 1) }).OnOutbox := fun _ => .bump ref
    simp [bumpAttempts, hrow]
  have hinsert (ref : RollbackRef) (ends : ℕ) :
      (Stmt.createRollback ref ⟨k, amount, .draining, 0, some ends⟩).OnOutbox :=
    fun _ => .insert ref k amount ends
  have hrelease (ref : RollbackRef) : (recordEmitFailure ref).Uses Stmt.OnOutbox := by
    have hrow : (Stmt.releaseRow ref).OnOutbox := fun _ => .release ref
    simp [recordEmitFailure, hrow]
  simp [rollbackOnce, claim, hbump, hinsert, hrelease, acquireLease_onOutbox, confirm_onOutbox,
    onOutbox_of_off]

lemma drainPending_onOutbox (mode : Bool) (l : ℕ) : (drainPending mode l).Uses Stmt.OnOutbox := by
  have hone (n : ℕ) (x : RollbackRef × WalletRollback) : (drainOne n x).Uses Stmt.OnOutbox := by
    have hfail (n : ℕ) : (Stmt.updateRollback x.1
        { status := some .pending, leaseUntil := some none, attempts := fun _ => n }).OnOutbox :=
      fun _ => .fail x.1 n
    simp [drainOne, hfail, acquireLease_onOutbox, confirm_onOutbox, onOutbox_of_off]
  cases mode with
  | false => trivial
  | true =>
      refine uses_compositional.bind (by simp [onOutbox_of_off]) fun rows => ?_
      exact uses_compositional.loop _ hone

lemma parts_onOutbox : Parts P fun _ p => p.Uses Stmt.OnOutbox :=
  parts_of_all uses_compositional (fun hp => hp.mono fun _ hs => onOutbox_of_off (writesRollbacks_of_off (outboxRef_of_off hs)))
    (fun _ => await_uses (onOutbox_of_off rfl)) rollbackOnce_onOutbox (drainPending_onOutbox _)

end Uses

/-- Every call holds nothing before and after, and is informed at each of its statements in between. -/
lemma parts_idle (hC : ∀ s w, C.inv w → Informed i s w → C.pre i s w) :
    Parts P fun _ p => Keeps C i (fun w => holds i w.log = none) p := by
  have hfree {α : Type} {p : Program game α} (hp : p.Uses fun s : Stmt => s.outboxRef = none ∧ s.emits = false) :
      Keeps C i (fun w => holds i w.log = none) p := by
    refine keeps_of_uses hp stable_idle fun s w hs hi hidle => ⟨hC s w hi (informed_off hs.1 hs.2), ?_⟩
    intro r w' ha _
    rw [holds_answers ha, holdAfter_off hs.1 hs.2]
    exact hidle
  exact parts_of_all (keeps_compositional stable_idle)
    (fun hp => hfree (hp.mono fun _ hs => ⟨outboxRef_of_off hs, emits_of_off hs⟩))
    (fun _ => hfree (await_uses ⟨rfl, rfl⟩)) (idle_rollbackOnce hC) (idle_drainPending hC _)

end VaultRun.Game
