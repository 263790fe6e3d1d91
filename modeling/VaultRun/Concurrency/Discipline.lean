import VaultRun.Concurrency.History

/-!
The order in which a program on its own issues its statements, and what follows from it for a run of many: a
condition on each statement and on what the call has learnt from its earlier answers.
-/

namespace VaultRun.Concurrency

variable {I : Interface} {Out σ Event Oracle α β μ : Type} {M : Machine I Out σ Event Oracle}

section Follows

variable (learn : μ → (s : I.Stmt) → I.Reply s → μ) (φ : μ → I.Stmt → Prop)

/-- Every statement satisfies `φ` with what has been learnt before it, and the program ends in `Q`. -/
def Follows (Q : Except I.Error α → μ → Prop) : Program I α → μ → Prop
  | .ret a, m => Q (.ok a) m
  | .raise e, m => Q (.error e) m
  | .call s k, m => φ m s ∧ ∀ r, Follows Q (k r) (learn m s r)

variable {learn φ} {m : μ} {Q Q' : Except I.Error α → μ → Prop} {T : Except I.Error β → μ → Prop}

lemma Follows.mono {p : Program I α} (h : Follows learn φ Q p m) (hQ : ∀ r m, Q r m → Q' r m) :
    Follows learn φ Q' p m := by
  induction p generalizing m with
  | ret a => exact hQ _ _ h
  | raise e => exact hQ _ _ h
  | call s k ih => exact ⟨h.1, fun r => ih r (h.2 r)⟩

lemma follows_bind {p : Program I α} {f : α → Program I β}
    (h : Follows learn φ (fun r m => match r with
      | .ok a => Follows learn φ T (f a) m
      | .error e => T (.error e) m) p m) :
    Follows learn φ T (p >>= f) m := by
  induction p generalizing m with
  | ret a => exact h
  | raise e => exact h
  | call s k ih => exact ⟨h.1, fun r => ih r (h.2 r)⟩

lemma follows_catching {p : Program I α} {f : I.Error → Program I α}
    (h : Follows learn φ (fun r m => match r with
      | .ok a => Q (.ok a) m
      | .error e => Follows learn φ Q (f e) m) p m) :
    Follows learn φ Q (p.catching f) m := by
  induction p generalizing m with
  | ret a => exact h
  | raise e => exact h
  | call s k ih => exact ⟨h.1, fun r => ih r (h.2 r)⟩

lemma follows_attempt {p : Program I α} {T : Except I.Error (Except I.Error α) → μ → Prop}
    (h : Follows learn φ (fun r m => T (.ok r) m) p m) : Follows learn φ T p.attempt m := by
  induction p generalizing m with
  | ret a => exact h
  | raise e => exact h
  | call s k ih => exact ⟨h.1, fun r => ih r (h.2 r)⟩

lemma follows_await {s : I.Stmt} {Q : Except I.Error (I.Result s) → μ → Prop} (hs : φ m s)
    (h : ∀ r, Q r (learn m s r)) : Follows learn φ Q (Program.await s) m := by
  refine ⟨hs, fun r => ?_⟩
  cases r with
  | ok a => exact h (.ok a)
  | error e => exact h (.error e)

lemma follows_await_bind {s : I.Stmt} {f : I.Result s → Program I β} (hs : φ m s)
    (hok : ∀ a, Follows learn φ T (f a) (learn m s (.ok a)))
    (herr : ∀ e, T (.error e) (learn m s (.error e))) :
    Follows learn φ T (Program.await s >>= f) m := by
  refine ⟨hs, fun r => ?_⟩
  cases r with
  | ok a => exact hok a
  | error e => exact herr e

lemma follows_map {p : Program I α} {g : α → β}
    (h : Follows learn φ (fun r m => T (r.map g) m) p m) : Follows learn φ T (g <$> p) m := by
  refine follows_bind (h.mono fun r m hr => ?_)
  cases r with
  | ok a => exact hr
  | error e => exact hr

/-- `J` is what every turn finds and leaves. -/
lemma follows_loop {f : β → α → Program I β} {xs : List α} {acc : β} {J : μ → Prop}
    (hf : ∀ x ∈ xs, ∀ acc m, J m → Follows learn φ (fun r m => match r with
      | .ok _ => J m
      | .error e => T (.error e) m) (f acc x) m)
    (hT : ∀ acc m, J m → T (.ok acc) m) (hm : J m) : Follows learn φ T (Program.loop f acc xs) m := by
  induction xs generalizing acc m with
  | nil => exact hT _ _ hm
  | cons x xs ih =>
      refine follows_bind ((hf x (by simp) acc m hm).mono fun r m hr => ?_)
      cases r with
      | ok acc' => exact ih (fun y hy => hf y (by simp [hy])) hr
      | error e => exact hr

lemma sat_of_follows {C : Contract M} {i : ℕ} {w : World I σ Event} {p : Program I α}
    (h : Follows learn φ Q p (foldBy learn m i w.log))
    (hφ : ∀ s w, C.inv w → φ (foldBy learn m i w.log) s → C.pre i s w) :
    Sat C i (fun r w => Q r (foldBy learn m i w.log)) p w := by
  have hstable (m' : μ) : C.Stable i fun w => foldBy learn m i w.log = m' :=
    fun w w' hd hw => hd.foldBy.trans hw
  induction p generalizing w with
  | ret a =>
      intro w₁ h₁ _
      rw [(hstable _).interferes h₁ rfl]
      exact h
  | raise e =>
      intro w₁ h₁ _
      rw [(hstable _).interferes h₁ rfl]
      exact h
  | call s k ih =>
      intro w₁ h₁ hi₁
      have hm : foldBy learn m i w₁.log = foldBy learn m i w.log := (hstable _).interferes h₁ rfl
      refine ⟨hφ s w₁ hi₁ (hm ▸ h.1), fun r w₂ ha _ => ih r ?_⟩
      obtain ⟨a, rfl⟩ := ha.world
      rw [World.answer_log, foldBy_self, hm]
      exact h.2 r

lemma follows_of_uses {ψ : I.Stmt → Prop} {p : Program I α} (hp : p.Uses ψ) (h : ∀ m s, ψ s → φ m s) :
    Follows learn φ (fun _ _ => True) p m := by
  induction p generalizing m with
  | ret a => trivial
  | raise e => trivial
  | call s k ih => exact ⟨h m s hp.1, fun r => ih r (hp.2 r)⟩

lemma follows_of_uses_keeping {ψ : I.Stmt → Prop} {J : μ → Prop} {p : Program I α} (hp : p.Uses ψ)
    (h : ∀ m s, ψ s → φ m s) (hJ : ∀ m s r, ψ s → J m → J (learn m s r)) (hm : J m) :
    Follows learn φ (fun _ m => J m) p m := by
  induction p generalizing m with
  | ret a => exact hm
  | raise e => exact hm
  | call s k ih => exact ⟨h m s hp.1, fun r => ih r (hp.2 r) (hJ m s r hp.1 hm)⟩

lemma follows_compositional : Compositional fun (α : Type) (p : Program I α) =>
    ∀ m, Follows learn φ (fun _ _ => True) p m where
  ret _ _ := trivial
  raise _ _ := trivial
  bind hp hf m := follows_bind ((hp m).mono fun r m' _ => by
    cases r with
    | ok a => exact hf a m'
    | error e => trivial)
  catching hp hh m := follows_catching ((hp m).mono fun r m' _ => by
    cases r with
    | ok a => trivial
    | error e => exact hh e m')
  attempt hp m := follows_attempt (hp m)

lemma follows_keeping_compositional {J : μ → Prop} : Compositional fun (α : Type) (p : Program I α) =>
    ∀ m, J m → Follows learn φ (fun _ m => J m) p m where
  ret _ _ hm := hm
  raise _ _ hm := hm
  bind hp hf m hm := follows_bind ((hp m hm).mono fun r m' hm' => by
    cases r with
    | ok a => exact hf a m' hm'
    | error e => exact hm')
  catching hp hh m hm := follows_catching ((hp m hm).mono fun r m' hm' => by
    cases r with
    | ok a => exact hm'
    | error e => exact hh e m' hm')
  attempt hp m hm := follows_attempt (hp m hm)

lemma Follows.weaken {φ' : μ → I.Stmt → Prop} {p : Program I α} (h : Follows learn φ Q p m)
    (hφ : ∀ m s, φ m s → φ' m s) : Follows learn φ' Q p m := by
  induction p generalizing m with
  | ret a => exact h
  | raise e => exact h
  | call s k ih => exact ⟨hφ m s h.1, fun r => ih r (h.2 r)⟩

lemma Follows.and_uses {ψ : I.Stmt → Prop} {p : Program I α} (h : Follows learn φ Q p m) (hp : p.Uses ψ) :
    Follows learn (fun m s => φ m s ∧ ψ s) Q p m := by
  induction p generalizing m with
  | ret a => exact h
  | raise e => exact h
  | call s k ih => exact ⟨⟨h.1, hp.1⟩, fun r => ih r (h.2 r) (hp.2 r)⟩

end Follows

def Contract.disciplined (M : Machine I Out σ Event Oracle) (learn : μ → (s : I.Stmt) → I.Reply s → μ)
    (m : μ) (φ : ℕ → μ → I.Stmt → Prop) (Q : ℕ → Except I.Error Out → μ → Prop)
    (rule : Rule I σ Event Oracle) (inv : World I σ Event → Prop) : Contract M where
  rule := rule
  inv := inv
  stmts _ := True
  pre i s w := φ i (foldBy learn m i w.log) s
  ended i r w := ∀ r', r = some r' → Q i r' (foldBy learn m i w.log)

section Disciplined

variable {learn : μ → (s : I.Stmt) → I.Reply s → μ} {m : μ} {φ : ℕ → μ → I.Stmt → Prop}
  {Q : ℕ → Except I.Error Out → μ → Prop} {R : Rule I σ Event Oracle} {inv : World I σ Event → Prop}

lemma uses_true (p : Program I α) : p.Uses fun _ => True := by
  induction p with
  | ret a => trivial
  | raise e => trivial
  | call s k ih => exact ⟨trivial, ih⟩

lemma disciplined_sound
    (hstart : ∀ n e w a p, R.env n e w → M.env e n w.state = some (a, some p) → Follows learn (φ n) (Q n) p m)
    (hact : ∀ i o s w r a, inv w → R.act i o s w → φ i (foldBy learn m i w.log) s →
      M.exec o i s w.state = some (r, a) → inv (w.answer i s r a))
    (hmove : ∀ n e w a p, inv w → R.env n e w → M.env e n w.state = some (a, p) → inv (w.move n e a))
    (hkill : ∀ i w, inv w → R.kill i w → inv (w.kill i (M.abort i w.state))) :
    (Contract.disciplined M learn m φ Q R inv).Sound where
  step := by
    rintro i s w r _ - hi hp ⟨o, a, ho, he, rfl⟩
    exact hact i o s w r a hi ho hp he
  move := by
    rintro w _ hi (⟨n, e, a, p, hr, he, rfl⟩ | ⟨i, hr, rfl⟩)
    · exact hmove n e w a p hi hr he
    · exact hkill i w hi hr
  start := by
    intro n e w a p _ habsent hr hp _
    refine ⟨uses_true p, (sat_of_follows (φ := φ n) (m := m) (Q := Q n) ?_ fun _ _ _ h => h).mono ?_⟩
    · rw [World.move_log, foldBy_moved, foldBy_of_absent habsent]
      exact hstart n e w a p hr hp
    · rintro r w - hr r' hr'
      obtain rfl := Option.some.inj hr'
      exact hr
  kill := by
    intro i w _ _ _ w' _ _ r' hr'
    cases hr'

variable {b : σ} {c : Config I Out σ Event}

/-- Every state of a run keeps the contract of the discipline. -/
lemma good_of_discipline
    (hstart : ∀ n e w a p, R.env n e w → M.env e n w.state = some (a, some p) → Follows learn (φ n) (Q n) p m)
    (hact : ∀ i o s w r a, inv w → R.act i o s w → φ i (foldBy learn m i w.log) s →
      M.exec o i s w.state = some (r, a) → inv (w.answer i s r a))
    (hmove : ∀ n e w a p, inv w → R.env n e w → M.env e n w.state = some (a, p) → inv (w.move n e a))
    (hkill : ∀ i w, inv w → R.kill i w → inv (w.kill i (M.abort i w.state)))
    (hb : inv ⟨b, []⟩) (h : R.Reaches M (Config.initial b) c) :
    c.Good (Contract.disciplined M learn m φ Q R inv) :=
  (Config.good_initial (C := Contract.disciplined M learn m φ Q R inv) hb).reaches
    (disciplined_sound (φ := φ) (Q := Q) hstart hact hmove hkill) h

theorem invariant_of_discipline
    (hstart : ∀ n e w a p, R.env n e w → M.env e n w.state = some (a, some p) → Follows learn (φ n) (Q n) p m)
    (hact : ∀ i o s w r a, inv w → R.act i o s w → φ i (foldBy learn m i w.log) s →
      M.exec o i s w.state = some (r, a) → inv (w.answer i s r a))
    (hmove : ∀ n e w a p, inv w → R.env n e w → M.env e n w.state = some (a, p) → inv (w.move n e a))
    (hkill : ∀ i w, inv w → R.kill i w → inv (w.kill i (M.abort i w.state)))
    (hb : inv ⟨b, []⟩) (h : R.Reaches M (Config.initial b) c) :
    inv c.world ∧ ∀ i out, c.threads[i]? = some (.live (.ret out)) →
      Q i (.ok out) (foldBy learn m i c.world.log) := by
  have hgood := good_of_discipline (φ := φ) (Q := Q) hstart hact hmove hkill hb h
  exact ⟨hgood.inv, fun i out ht => hgood.ended ht _ rfl⟩

end Disciplined

def Rule.following (R : Rule I σ Event Oracle) (learn : μ → (s : I.Stmt) → I.Reply s → μ) (m : μ)
    (φ : ℕ → μ → I.Stmt → Prop) : Rule I σ Event Oracle :=
  { R with act := fun i o s w => R.act i o s w ∧ φ i (foldBy learn m i w.log) s }

lemma Rule.Reaches.following {R : Rule I σ Event Oracle} {learn : μ → (s : I.Stmt) → I.Reply s → μ} {m : μ}
    {φ : ℕ → μ → I.Stmt → Prop} {b : σ} {c : Config I Out σ Event} (h : R.Reaches M (Config.initial b) c)
    (hstart : ∀ n e w a p, R.env n e w → M.env e n w.state = some (a, some p) →
      Follows learn (φ n) (fun _ _ => True) p m) :
    (R.following learn m φ).Reaches M (Config.initial b) c := by
  induction h with
  | refl => exact .refl
  | @tail c c' hreach hstep ih =>
      obtain ⟨l, hl, hc⟩ := hstep
      have hgood : c.Good (Contract.disciplined M learn m φ (fun _ _ _ => True) R fun _ => True) :=
        good_of_discipline hstart (fun _ _ _ _ _ _ _ _ _ _ => trivial) (fun _ _ _ _ _ _ _ _ => trivial)
          (fun _ _ _ _ => trivial) trivial hreach
      refine ih.tail ⟨l, ?_, hc⟩
      cases l with
      | act i o => exact fun s k ht => ⟨hl s k ht, (hgood.pre ht).2⟩
      | env e => exact hl
      | kill i => exact hl

end VaultRun.Concurrency
