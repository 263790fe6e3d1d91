import VaultRun.Fairness.Memory

/-!
At most one epoch is active as long as no epoch becomes active between a call's look at the active epoch and
its own activation of one.
-/

namespace VaultRun.Safety.OneActiveEpoch

open VaultRun.Concurrency VaultRun.Fairness

def AtMostOneActive (σ : State) : Prop :=
  ∀ j k c d, σ.chains.row j = some c → σ.chains.row k = some d → c.status = .active → d.status = .active → j = k

@[reducible] def activates : Stmt → Bool
  | .updateChain _ d => d.status = some .active
  | .createChain row => row.status = .active
  | _ => false

def MakesActive (x : FairEntry) : Prop :=
  ∃ k c, x.after.chains.row k = some c ∧ c.status = .active ∧
    ∀ c', x.before.chains.row k = some c' → c'.status ≠ .active

@[reducible] def looks (i : ℕ) : FairEntry → Bool
  | .answered j .findActive (.ok _) _ _ => j = i
  | _ => false

/-- No epoch has become active since call `i` last looked. -/
def Fresh (i : ℕ) : List FairEntry → Prop
  | [] => False
  | x :: log => looks i x ∨ ¬ MakesActive x ∧ Fresh i log

@[reducible] def freshly : FairRule where
  act i _ s w := activates s → Fresh i w.log
  kill _ _ := True
  env _ _ _ := True

structure Looked (σ : State) (m : Memory) : Prop where
  vacant : m.vacant → ∀ k c, σ.chains.row k = some c → c.status ≠ .active
  active : ∀ j c, m.active = some (j, c) → ∀ k d, σ.chains.row k = some d → d.status = .active → k = j

def ActiveInv (w : FairWorld) : Prop :=
  AtMostOneActive w.state ∧ ∀ i, Fresh i w.log → Looked w.state (memory i w.log)

variable {P : Params} {σ σ' : State} {m : Memory} {o : Oracle} {s : Stmt} {r : fairness.Reply s} {w : FairWorld}
  {i : ℕ}

lemma active_of_makesNone {x : FairEntry} (hx : ¬ MakesActive x) {k : ℕ} {c : Chain}
    (hc : x.after.chains.row k = some c) (hst : c.status = .active) :
    ∃ c', x.before.chains.row k = some c' ∧ c'.status = .active := by
  by_contra hno
  exact hx ⟨k, c, hc, hst, fun c' hc' hst' => hno ⟨c', hc', hst'⟩⟩

lemma Looked.kept {x : FairEntry} (h : Looked x.before m) (hx : ¬ MakesActive x) : Looked x.after m where
  vacant := by
    intro hv k c hc hst
    obtain ⟨c', hc', hst'⟩ := active_of_makesNone hx hc hst
    exact h.vacant hv k c' hc' hst'
  active := by
    intro j c hj k d hd hst
    obtain ⟨d', hd', hst'⟩ := active_of_makesNone hx hd hst
    exact h.active j c hj k d' hd' hst'

lemma looked_of_look {a : Option (ℕ × Chain)} (hone : AtMostOneActive σ)
    (h : exec o .findActive σ = some (.ok a, σ')) : Looked σ' (m.learn .findActive (.ok a)) := by
  obtain ⟨hr, rfl⟩ := Prod.mk.inj (Option.some.inj (perform_of_ok h rfl))
  have ha := Except.ok.inj hr
  cases a with
  | none => exact ⟨fun _ k c hc => findActive_none ha hc, nofun⟩
  | some a =>
      refine ⟨nofun, fun j c hj k d hd hst => ?_⟩
      obtain rfl : a = (j, c) := Option.some.inj hj
      obtain ⟨hrow, hact⟩ := findActive_some ha
      exact hone k j d c hd hrow hst hact

lemma Looked.learn (h : Looked σ m) (hone : AtMostOneActive σ) (hx : ¬ MakesActive (.answered i s r σ σ'))
    (hs : exec o s σ = some (r, σ')) : Looked σ' (m.learn s r) := by
  have hkept : Looked σ' m := Looked.kept (x := .answered i s r σ σ') h hx
  refine ⟨fun hv k c hc hst => ?_, fun j c hj k d hd hst => ?_⟩
  · rcases Memory.vacant_learn hs hv with hv | ⟨rfl, rfl, hnone⟩ | ⟨j, c₀, d, hj, rfl, hd, old, hrow⟩
    · exact hkept.vacant hv k c hc hst
    · exact findActive_none hnone hc hst
    · obtain rfl := hkept.active j c₀ hj k c hc hst
      obtain rfl := Option.some.inj (hrow.symm.trans hc)
      simp [ChainData.apply, hd] at hst
  · rcases Memory.active_learn hs hj with hj | ⟨rfl, hrow, hact⟩
    · exact hkept.active j c hj k d hd hst
    · exact hone k j d c hd hrow hst hact

lemma active_of_exec (h : exec o s σ = some (r, σ')) (hs : activates s = false) {k : ℕ} {c : Chain}
    (hc : σ'.chains.row k = some c) (hst : c.status = .active) :
    ∃ c', σ.chains.row k = some c' ∧ c'.status = .active := by
  cases exec_chainChange h k with
  | kept hk => exact ⟨c, hk ▸ hc, hst⟩
  | created hn hk =>
      obtain rfl := Option.some.inj (hk.symm.trans hc)
      simp [hst] at hs
  | @updated d old hold hk =>
      obtain rfl := Option.some.inj (hk.symm.trans hc)
      refine ⟨old, hold, ?_⟩
      cases hd : d.status with
      | none => simpa [ChainData.apply, hd] using hst
      | some st =>
          have hst' : st = .active := by simpa [ChainData.apply, hd] using hst
          simp [hd, hst'] at hs

lemma atMostOne_of_vacant (h : exec o s σ = some (r, σ'))
    (hv : ∀ k c, σ.chains.row k = some c → c.status ≠ .active) : AtMostOneActive σ' := by
  have hkey (k : ℕ) (c : Chain) (hc : σ'.chains.row k = some c) (hst : c.status = .active) :
      (∃ row, s = .createChain row ∧ k = σ.chains.next) ∨ ∃ d, s = .updateChain k d := by
    cases exec_chainChange h k with
    | kept hk => exact absurd hst (hv k c (hk ▸ hc))
    | created hn hk => exact .inl ⟨_, rfl, hn⟩
    | updated hold hk => exact .inr ⟨_, rfl⟩
  intro j k c d hc hd hcs hds
  rcases hkey j c hc hcs with ⟨row, rfl, rfl⟩ | ⟨_, rfl⟩ <;> rcases hkey k d hd hds with ⟨row', hr, hk⟩ | ⟨_, hr⟩
  · exact hk.symm
  · cases hr
  · cases hr
  · injection hr

lemma vacant_of_due (hd : m.Due P s) (hs : activates s) : m.vacant := by
  cases s with
  | updateChain k d =>
      cases hd with
      | promoteArmed hv | promoteSalted hv => exact hv
      | _ => cases hs
  | createChain row =>
      cases hd.1 with
      | random _ _ _ hstatus =>
          rcases hstatus with hst | ⟨-, hv⟩
          · simp [hst] at hs
          · exact hv
      | ethBlock _ _ _ hstatus => simp [hstatus] at hs
  | _ => cases hs

lemma ActiveInv.answer (h : ActiveInv w) (hr : freshly.act i o s w) (hd : (memory i w.log).Due P s)
    (hs : exec o s w.state = some (r, σ')) : ActiveInv (w.answer i s r σ') := by
  obtain ⟨hone, hlook⟩ := h
  refine ⟨?_, fun j hj => ?_⟩
  · by_cases ha : activates s
    · exact atMostOne_of_vacant hs ((hlook i (hr ha)).vacant (vacant_of_due hd ha))
    · intro j k c d hc hd' hcs hds
      obtain ⟨c', hc', hcs'⟩ := active_of_exec hs (by simpa using ha) hc hcs
      obtain ⟨d', hd'', hds'⟩ := active_of_exec hs (by simpa using ha) hd' hds
      exact hone j k c' d' hc' hd'' hcs' hds'
  · change Looked σ' (memory j (.answered i s r w.state σ' :: w.log))
    rcases hj with hl | ⟨hx, hfresh⟩
    · match s, r, hl with
      | .findActive, .ok a, hl =>
          obtain rfl : i = j := by simpa using hl
          rw [memory, foldBy_self]
          exact looked_of_look hone hs
    · by_cases hij : i = j
      · subst hij
        rw [memory, foldBy_self]
        exact (hlook i hfresh).learn hone hx hs
      · rw [memory, foldBy_answered hij]
        exact Looked.kept (x := .answered i s r w.state σ') (hlook j hfresh) hx

lemma ActiveInv.move {n : ℕ} {e : Event} {p : Option (Program fairness Outcome)} (h : ActiveInv w)
    (he : environment P e w.state = some (σ, p)) : ActiveInv (w.move n e σ) := by
  obtain ⟨hone, hlook⟩ := h
  have hchains : σ.chains = w.state.chains := by
    cases e <;> obtain ⟨rfl, -⟩ := Prod.mk.inj (Option.some.inj he) <;> rfl
  refine ⟨fun j k c d hc hd => hone j k c d (hchains ▸ hc) (hchains ▸ hd), fun j hj => ?_⟩
  rcases hj with hl | ⟨hx, hfresh⟩
  · cases hl
  · exact Looked.kept (x := .moved n e w.state σ) (hlook j hfresh) hx

lemma ActiveInv.kill (h : ActiveInv w) : ActiveInv (w.kill i w.state) := by
  refine ⟨h.1, fun j hj => ?_⟩
  rcases hj with hl | ⟨-, hfresh⟩
  · cases hl
  · exact h.2 j hfresh

/-- As long as no epoch becomes active between a call's look and its own activation, at most one epoch is
active in every state, and no two epochs have one number. -/
theorem one_active_epoch {c : FairConfig} (hσ : AtMostOneActive σ)
    (h : freshly.Reaches (system P) (Config.initial σ) c) :
    AtMostOneActive c.world.state ∧ ∀ j k x y, c.world.state.chains.row j = some x →
      c.world.state.chains.row k = some y → x.epoch = y.epoch → j = k := by
  have hinv := (invariant_of_calls (fun _ _ _ _ _ _ hw hr hd hs => ActiveInv.answer hw hr hd hs)
    (fun _ _ _ _ _ hw _ he => hw.move he) (fun _ _ hw _ => hw.kill) ⟨hσ, fun _ => nofun⟩ h).1
  exact ⟨hinv.1, c.world.state.chains.unique⟩

section Runs

open Scenario

instance (x : FairEntry) : Decidable (MakesActive x) :=
  decidable_of_iff (x.after.chains.count (fun k c => c.status = .active &&
    (x.before.chains.row k).all fun c' => c'.status ≠ .active) ≠ 0) <| by
      simp [Data.Table.count_ne_zero, MakesActive, Option.all_eq_true]

instance decidableFresh (i : ℕ) : (log : List FairEntry) → Decidable (Fresh i log)
  | [] => .isFalse id
  | _ :: log =>
      have := decidableFresh i log
      inferInstanceAs (Decidable (_ ∨ _ ∧ _))

/-- One epoch, opened by the first round and asked for by the public endpoint. -/
theorem one_epoch_for_two : ∃ c : FairConfig, AtMostOneActive c.world.state ∧
    ∃ x, c.world.state.chains.row 0 = some x ∧ x.status = .active := by
  have hrun : (system (params false .random)).run (Config.initial .empty)
      (.env (.call .openRound) :: opensRandom 0 ++ [.env (.call .ensureChain)] ++ acts 1 4 ++ acts 0 3) =
        some _ := rfl
  have hσ : AtMostOneActive .empty := nofun
  exact ⟨_, (one_active_epoch hσ (Rule.reaches_of_run (R := freshly) (by decide) hrun)).1, _, rfl, rfl⟩

/-- The public endpoint and the engine both find no epoch in an empty deployment, and each opens one. -/
theorem two_active_epochs : AtMostOneActive .empty ∧ ∃ c : FairConfig,
    Rule.free.Reaches (system (params false .random)) (Config.initial .empty) c ∧
      ¬ AtMostOneActive c.world.state := by
  refine ⟨nofun, ?_⟩
  have hrun : (system (params false .random)).run (Config.initial .empty)
      (.env (.call .ensureChain) :: .env (.call .allocateSeed) :: acts 0 3 ++ opensRandom 1 ++
        [.act 0 .ok, .act 0 (.bytes "salt"), .act 0 (.bytes "last"), .act 0 .ok]) = some _ := rfl
  refine ⟨_, Rule.reaches_of_run Rule.obeys_free hrun, fun h => ?_⟩
  cases h 0 1 _ _ rfl rfl rfl rfl

end Runs

end VaultRun.Safety.OneActiveEpoch
