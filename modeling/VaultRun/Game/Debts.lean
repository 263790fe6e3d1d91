import VaultRun.Game.Lifecycle

/-!
What a call owes from a claim that it has made to the wallet move that pays it off.
-/

namespace VaultRun.Game

open VaultRun.Concurrency

section Processing

def working (i : ℕ) : GameEntry → Bool
  | .answered j s _ _ _ => j = i && !s.ofWallet
  | _ => false

/-- Since an entry that satisfies `claim`, call `i` has been busy with its wallet. -/
def processing (claim : GameEntry → List GameEntry → Bool) (i : ℕ) : List GameEntry → Bool
  | [] => false
  | x :: log => if working i x then claim x log else processing claim i log

variable {claim : GameEntry → List GameEntry → Bool} {i j n : ℕ} {s : Stmt} {r : game.Reply s}
  {b a : State} {e : Event} {log : List GameEntry} {P : Params} {C : Contract (system P)}
  {w w' : GameWorld}

@[simp] lemma processing_other (h : j ≠ i) :
    processing claim i (.answered j s r b a :: log) = processing claim i log := by
  simp [processing, working, h]

@[simp] lemma processing_moved :
    processing claim i (.moved n e b a :: log) = processing claim i log := by
  simp [processing, working]

@[simp] lemma processing_killed :
    processing claim i (.killed n b a :: log) = processing claim i log := by
  simp [processing, working]

lemma processing_wallet (h : s.ofWallet) :
    processing claim i (.answered j s r b a :: log) = processing claim i log := by
  simp [processing, working, h]

lemma processing_own (h : s.ofWallet = false) :
    processing claim i (.answered i s r b a :: log) = claim (.answered i s r b a) log := by
  simp [processing, working, h]

lemma processing_of_lastBy (h : lastBy i log = none) : processing claim i log = false := by
  induction log with
  | nil => rfl
  | cons x log ih =>
      have hx : x.isBy i = false := by
        by_contra hb
        simp [lastBy, hb] at h
      have hw : working i x = false := by
        cases x <;> simp_all [Entry.isBy, working]
      simp only [processing, hw, Bool.false_eq_true, if_false]
      exact ih (by simpa [lastBy, hx] using h)

lemma moves_processing (claim : GameEntry → List GameEntry → Bool) (i : ℕ) (h : C.Moves w w') :
    processing claim i w'.log = processing claim i w.log := by
  rcases h with ⟨n, e, a, p, -, -, rfl⟩ | ⟨j, -, rfl⟩
  · exact processing_moved
  · exact processing_killed

lemma disturbs_processing (h : C.Disturbs i w w') :
    processing claim i w'.log = processing claim i w.log := by
  rcases h.2.2 with hm | ⟨j, s, r, hj, -, -, o, a, -, -, rfl⟩
  · exact moves_processing claim i hm
  · exact processing_other hj

lemma live_or_ended_of_processing {c : GameConfig} (hc : c.Good C)
    (h : processing claim i c.world.log) :
    (∃ s k, c.threads[i]? = some (.live (.call s k))) ∨ ∃ r, C.ended i r c.world := by
  refine hc.live_or_ended ?_
  by_contra hge
  have hnone : lastBy i c.world.log = none :=
    lastBy_eq_none fun x hx s hs => hge (hc.callers x hx i s hs)
  simp [processing_of_lastBy hnone] at h

def asksWin (i : ℕ) : GameEntry → Bool
  | .answered j (.operatorWin _) _ _ _ => j = i
  | _ => false

/-- How often call `i` has asked the operator to pay since it last did anything but wallet work. -/
def tries (i : ℕ) : List GameEntry → ℕ
  | [] => 0
  | x :: log => if working i x then 0 else tries i log + (if asksWin i x then 1 else 0)

lemma tries_other (h : j ≠ i) : tries i (.answered j s r b a :: log) = tries i log := by
  cases s <;> simp [tries, working, asksWin, h]

lemma tries_own (h : s.ofWallet = false) : tries i (.answered i s r b a :: log) = 0 := by
  simp [tries, working, h]

lemma tries_wallet (h : s.ofWallet) (hs : ∀ req, s ≠ .operatorWin req) :
    tries i (.answered j s r b a :: log) = tries i log := by
  cases s <;> simp_all [tries, working, asksWin]

lemma tries_win {req : OperatorRequest} {r : Except Err WalletTxResult} :
    tries i (.answered i (.operatorWin req) r b a :: log) = tries i log + 1 := by
  simp [tries, working, asksWin]

lemma disturbs_tries (h : C.Disturbs i w w') : tries i w'.log = tries i w.log := by
  rcases h.2.2 with (⟨n, e, a, p, -, -, rfl⟩ | ⟨j, -, rfl⟩) | ⟨j, s, r, hj, -, -, o, a, -, -, rfl⟩
  · simp [tries, working, asksWin]
  · simp [tries, working, asksWin]
  · exact tries_other hj

/-- The statement does not keep a credit from moving the money: it goes through, or the wallet moves
the money before it fails, or there is still a try left. -/
def Delivers (i : ℕ) (o : Oracle) (w : GameWorld) : Stmt → Bool
  | .recordLedger wl amt _ _ _ => o ≠ .lost && (w.state.wallets.row wl).any (0 ≤ ·.balance + amt)
  | .operatorWin _ => (o ≠ .lost && o ≠ .timedOut false) || tries i w.log < 2
  | _ => o = .ok

end Processing

section Owing

variable {P : Params} {C : Contract (system P)} {claim : GameEntry → List GameEntry → Bool}
  {A : GameWorld → Prop} {claims : Stmt → Prop} {k : Key} {q : Prop} {i : ℕ} {w : GameWorld} {s : Stmt}
  {r : game.Reply s} {σ' : State}

/-- What a call knows of its own debts between its statements. -/
def NotOwing (claim : GameEntry → List GameEntry → Bool) (A : GameWorld → Prop) (i : ℕ) (w : GameWorld) :
    Prop :=
  processing claim i w.log → A w

lemma stable_notOwing (hA : C.Stable i A) : C.Stable i (NotOwing claim A i) := by
  intro w w' h hw hproc
  rw [disturbs_processing h] at hproc
  exact hA w w' h (hw hproc)

lemma notOwing_of_lastBy (h : lastBy i w.log = none) : NotOwing claim A i w := by
  intro hproc
  simp [processing_of_lastBy h] at hproc

lemma NotOwing.answer (hw : NotOwing claim A i w)
    (hc : s.ofWallet = false → ¬ claim (.answered i s r w.state σ') w.log)
    (hA : A w → A (w.answer i s r σ')) : NotOwing claim A i (w.answer i s r σ') := by
  intro hproc
  cases hwal : s.ofWallet with
  | true =>
      rw [World.answer_log, processing_wallet hwal] at hproc
      exact hA (hw hproc)
  | false =>
      rw [World.answer_log, processing_own hwal] at hproc
      exact absurd hproc (hc hwal)

lemma NotOwing.kill (hw : NotOwing claim A i w) (hA : A w → A (w.kill i σ')) :
    NotOwing claim A i (w.kill i σ') := by
  intro hproc
  rw [World.kill_log, processing_killed] at hproc
  exact hA (hw hproc)

/-- A statement that makes none of the claims, and takes back what has moved under the key only if `q`
says so. -/
structure Harmless (claims : Stmt → Prop) (k : Key) (q : Prop) (s : Stmt) : Prop where
  issued : s.Issued
  claim : ¬ claims s
  undone : s.undone = some k → q

variable (hclaims : ∀ s, claims s → s.writesBets)
include hclaims

lemma harmless_plain (hs : s.plain) : Harmless claims k q s := by
  refine ⟨Stmt.issued_of_plain hs, fun hc => ?_, fun hu => ?_⟩
  · simp [hclaims s hc] at hs
  · cases s <;> simp_all

lemma harmless_wallet (hs : s.ofWallet) (hu : s.undone = some k → q) : Harmless claims k q s := by
  have hbets : s.writesBets = false := by cases s <;> simp_all
  refine ⟨fun h => ?_, fun hc => ?_, hu⟩
  · rw [hbets] at h
    cases h
  · rw [hclaims s hc] at hbets
    cases hbets

end Owing

end VaultRun.Game
