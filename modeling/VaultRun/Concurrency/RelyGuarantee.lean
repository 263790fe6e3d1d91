import VaultRun.Concurrency.Machine

/-!
Rely-guarantee reasoning for concurrent programs: what a call promises about each statement it
issues, what it may rely on between two of them, and the soundness of checking every call on its own.
-/

namespace VaultRun.Concurrency

open Relation

/-- `stmts` are the statements the programs are made of, `pre i` holds of every statement call `i`
issues, and `ended i` once it takes no more steps: with its result, or with `none` where it was
killed. -/
structure Contract {I : Interface} {Out σ Event Oracle : Type} (M : Machine I Out σ Event Oracle)
    where
  rule : Rule I σ Event Oracle
  inv : World I σ Event → Prop
  stmts : I.Stmt → Prop
  pre : ℕ → I.Stmt → World I σ Event → Prop
  ended : ℕ → Option (Except I.Error Out) → World I σ Event → Prop

variable {I : Interface} {Out σ Event Oracle α β : Type} {M : Machine I Out σ Event Oracle}

namespace Contract

variable (C : Contract M)

def Answers (i : ℕ) (s : I.Stmt) (w : World I σ Event) (r : I.Reply s) (w' : World I σ Event) :
    Prop :=
  ∃ o a, C.rule.act i o s w ∧ M.exec o i s w.state = some (r, a) ∧ w' = w.answer i s r a

def Moves (w w' : World I σ Event) : Prop :=
  (∃ n e a p, C.rule.env n e w ∧ M.env e n w.state = some (a, p) ∧ w' = w.move n e a) ∨
    ∃ i, C.rule.kill i w ∧ w' = w.kill i (M.abort i w.state)

def Disturbs (i : ℕ) (w w' : World I σ Event) : Prop :=
  C.inv w ∧ C.inv w' ∧
    (C.Moves w w' ∨ ∃ j s r, j ≠ i ∧ C.stmts s ∧ C.pre j s w ∧ C.Answers j s w r w')

def Interferes (i : ℕ) : World I σ Event → World I σ Event → Prop := ReflTransGen (C.Disturbs i)

def Stable (i : ℕ) (P : World I σ Event → Prop) : Prop := ∀ w w', C.Disturbs i w w' → P w → P w'

def Settled (i : ℕ) (w : World I σ Event) : Prop :=
  ∀ w', C.Interferes i w w' → C.inv w' → C.ended i none w'

def withPre (pre : ℕ → I.Stmt → World I σ Event → Prop) : Contract M := { C with pre := pre }

end Contract

variable {C : Contract M} {i : ℕ} {w w' : World I σ Event} {J K : World I σ Event → Prop}

lemma Contract.Stable.interferes (hJ : C.Stable i J) (h : C.Interferes i w w') (hw : J w) : J w' := by
  induction h with
  | refl => exact hw
  | tail _ hd ih => exact hJ _ _ hd ih

lemma Contract.Stable.and (hJ : C.Stable i J) (hK : C.Stable i K) :
    C.Stable i fun w => J w ∧ K w :=
  fun w w' hd hw => ⟨hJ w w' hd hw.1, hK w w' hd hw.2⟩

lemma Contract.stable_const (p : Prop) : C.Stable i fun _ => p := fun _ _ _ h => h

/-- Started in `w`, the program keeps the contract at each of its statements and ends in `Q`,
whatever the other calls do in between. -/
def Sat (C : Contract M) (i : ℕ) (Q : Except I.Error α → World I σ Event → Prop) :
    Program I α → World I σ Event → Prop
  | .ret a, w => ∀ w', C.Interferes i w w' → C.inv w' → Q (.ok a) w'
  | .raise e, w => ∀ w', C.Interferes i w w' → C.inv w' → Q (.error e) w'
  | .call s k, w => ∀ w', C.Interferes i w w' → C.inv w' → C.pre i s w' ∧
      ∀ r w'', C.Answers i s w' r w'' → C.inv w'' → Sat C i Q (k r) w''

section Rules

variable {Q Q' : Except I.Error α → World I σ Event → Prop} {T : Except I.Error β → World I σ Event → Prop}

lemma Sat.interferes {p : Program I α} (h : Sat C i Q p w) (hw : C.Interferes i w w') :
    Sat C i Q p w' := by
  cases p with
  | ret a => exact fun w₁ h₁ => h w₁ (hw.trans h₁)
  | raise e => exact fun w₁ h₁ => h w₁ (hw.trans h₁)
  | call s k => exact fun w₁ h₁ => h w₁ (hw.trans h₁)

lemma Sat.mono {p : Program I α} (h : Sat C i Q p w) (hQ : ∀ r w, C.inv w → Q r w → Q' r w) :
    Sat C i Q' p w := by
  induction p generalizing w with
  | ret a => exact fun w₁ h₁ hi => hQ _ _ hi (h w₁ h₁ hi)
  | raise e => exact fun w₁ h₁ hi => hQ _ _ hi (h w₁ h₁ hi)
  | call s k ih =>
      intro w₁ h₁ hi
      obtain ⟨hp, hk⟩ := h w₁ h₁ hi
      exact ⟨hp, fun r w₂ hr hi₂ => ih r (hk r w₂ hr hi₂)⟩

/-- What no step takes back is there at the end if it is at the start. -/
lemma Sat.frame {p : Program I α} (h : Sat C i Q p w) (hJ : C.Stable i J)
    (hown : ∀ s w r w', C.Answers i s w r w' → J w → J w') (hw : J w) :
    Sat C i (fun r w => Q r w ∧ J w) p w := by
  induction p generalizing w with
  | ret a => exact fun w₁ h₁ hi => ⟨h w₁ h₁ hi, hJ.interferes h₁ hw⟩
  | raise e => exact fun w₁ h₁ hi => ⟨h w₁ h₁ hi, hJ.interferes h₁ hw⟩
  | call s k ih =>
      intro w₁ h₁ hi
      obtain ⟨hp, hk⟩ := h w₁ h₁ hi
      exact ⟨hp, fun r w₂ hr hi₂ => ih r (hk r w₂ hr hi₂) (hown s w₁ r w₂ hr (hJ.interferes h₁ hw))⟩

lemma Contract.Interferes.weaken {pre : ℕ → I.Stmt → World I σ Event → Prop}
    (h : C.Interferes i w w') (hpre : ∀ j s w, C.pre j s w → pre j s w) :
    (C.withPre pre).Interferes i w w' := by
  refine ReflTransGen.mono ?_ w w' h
  rintro w w' ⟨hi, hi', hm | ⟨j, s, r, hj, hs, hp, ha⟩⟩
  · exact ⟨hi, hi', .inl hm⟩
  · exact ⟨hi, hi', .inr ⟨j, s, r, hj, hs, hpre j s w hp, ha⟩⟩

/-- A call that keeps a contract keeps one that asks for more, where what it knows besides and the
statements it is made of supply the rest. -/
lemma Sat.strengthen {p : Program I α} {pre : ℕ → I.Stmt → World I σ Event → Prop} {φ : I.Stmt → Prop}
    (h : Sat (C.withPre pre) i Q p w) (hp : p.Uses φ) (hweak : ∀ j s w, C.pre j s w → pre j s w)
    (hpre : ∀ s w, φ s → C.inv w → J w → pre i s w → C.pre i s w) (hJ : C.Stable i J)
    (hown : ∀ s w r w', φ s → C.Answers i s w r w' → J w → J w') (hw : J w) :
    Sat C i (fun r w => Q r w ∧ J w) p w := by
  induction p generalizing w with
  | ret a => exact fun w₁ h₁ hi => ⟨h w₁ (h₁.weaken hweak) hi, hJ.interferes h₁ hw⟩
  | raise e => exact fun w₁ h₁ hi => ⟨h w₁ (h₁.weaken hweak) hi, hJ.interferes h₁ hw⟩
  | call s k ih =>
      intro w₁ h₁ hi
      have hw₁ := hJ.interferes h₁ hw
      obtain ⟨hs, hk⟩ := h w₁ (h₁.weaken hweak) hi
      refine ⟨hpre s w₁ hp.1 hi hw₁ hs, fun r w₂ hr hi₂ => ?_⟩
      exact ih r (hk r w₂ hr hi₂) (hp.2 r) (hown s w₁ r w₂ hp.1 hr hw₁)

lemma sat_iff_later {p : Program I α} :
    (∀ w', C.Interferes i w w' → C.inv w' → Sat C i Q p w') ↔ Sat C i Q p w := by
  refine ⟨fun h => ?_, fun h w₁ h₁ _ => h.interferes h₁⟩
  cases p with
  | ret a => exact fun w₁ h₁ hi => h w₁ h₁ hi w₁ .refl hi
  | raise e => exact fun w₁ h₁ hi => h w₁ h₁ hi w₁ .refl hi
  | call s k => exact fun w₁ h₁ hi => h w₁ h₁ hi w₁ .refl hi

lemma sat_bind {p : Program I α} {f : α → Program I β}
    (h : Sat C i (fun r w => match r with
      | .ok a => Sat C i T (f a) w
      | .error e => T (.error e) w) p w) :
    Sat C i T (p >>= f) w := by
  induction p generalizing w with
  | ret a => exact sat_iff_later.1 h
  | raise e => exact h
  | call s k ih =>
      intro w₁ h₁ hi
      obtain ⟨hp, hk⟩ := h w₁ h₁ hi
      exact ⟨hp, fun r w₂ hr hi₂ => ih r (hk r w₂ hr hi₂)⟩

lemma sat_catching {p : Program I α} {f : I.Error → Program I α}
    (h : Sat C i (fun r w => match r with
      | .ok a => Q (.ok a) w
      | .error e => Sat C i Q (f e) w) p w) :
    Sat C i Q (p.catching f) w := by
  induction p generalizing w with
  | ret a => exact h
  | raise e => exact sat_iff_later.1 h
  | call s k ih =>
      intro w₁ h₁ hi
      obtain ⟨hp, hk⟩ := h w₁ h₁ hi
      exact ⟨hp, fun r w₂ hr hi₂ => ih r (hk r w₂ hr hi₂)⟩

lemma sat_attempt {p : Program I α} {T : Except I.Error (Except I.Error α) → World I σ Event → Prop}
    (h : Sat C i (fun r w => T (.ok r) w) p w) : Sat C i T p.attempt w := by
  induction p generalizing w with
  | ret a => exact h
  | raise e => exact h
  | call s k ih =>
      intro w₁ h₁ hi
      obtain ⟨hp, hk⟩ := h w₁ h₁ hi
      exact ⟨hp, fun r w₂ hr hi₂ => ih r (hk r w₂ hr hi₂)⟩

/-- `await`, with `Q` required of the answered world before anyone else moves. -/
lemma sat_await {s : I.Stmt} {Q : Except I.Error (I.Result s) → World I σ Event → Prop}
    (h : ∀ w', C.Interferes i w w' → C.inv w' → C.pre i s w' ∧
      ∀ r w'', C.Answers i s w' r w'' → C.inv w'' →
        ∀ w₁, C.Interferes i w'' w₁ → C.inv w₁ → Q r w₁) :
    Sat C i Q (Program.await s) w := by
  intro w₁ h₁ hi
  obtain ⟨hp, hk⟩ := h w₁ h₁ hi
  refine ⟨hp, fun r w₂ hr hi₂ => ?_⟩
  cases r with
  | ok a => exact hk _ w₂ hr hi₂
  | error e => exact hk _ w₂ hr hi₂

lemma sat_await_bind {s : I.Stmt} {f : I.Result s → Program I β}
    (h : ∀ w', C.Interferes i w w' → C.inv w' → C.pre i s w' ∧
      ∀ r w'', C.Answers i s w' r w'' → C.inv w'' → match r with
        | .ok a => Sat C i T (f a) w''
        | .error e => ∀ w₁, C.Interferes i w'' w₁ → C.inv w₁ → T (.error e) w₁) :
    Sat C i T (Program.await s >>= f) w := by
  intro w₁ h₁ hi
  obtain ⟨hp, hk⟩ := h w₁ h₁ hi
  refine ⟨hp, fun r w₂ hr hi₂ => ?_⟩
  have := hk r w₂ hr hi₂
  cases r with
  | ok a => exact this
  | error e => exact this

/-- The invariant `J` of a loop is what every turn finds and leaves. -/
lemma sat_loop {f : β → α → Program I β} {xs : List α} {acc : β}
    (hf : ∀ x ∈ xs, ∀ acc w, C.inv w → J w → Sat C i (fun r w => match r with
      | .ok _ => J w
      | .error e => T (.error e) w) (f acc x) w)
    (hJ : C.Stable i J) (hT : ∀ acc w, C.inv w → J w → T (.ok acc) w) (hi : C.inv w) (hw : J w) :
    Sat C i T (Program.loop f acc xs) w := by
  induction xs generalizing acc w with
  | nil => exact fun w₁ h₁ hi₁ => hT _ _ hi₁ (hJ.interferes h₁ hw)
  | cons x xs ih =>
      refine sat_bind ((hf x (by simp) acc w hi hw).mono fun r w₁ hi₁ hr => ?_)
      cases r with
      | ok acc' => exact ih (fun y hy => hf y (by simp [hy])) hi₁ hr
      | error e => exact hr

end Rules

/-- Wherever it starts with `J`, the program keeps the contract and ends with `J`. -/
def Keeps (C : Contract M) (i : ℕ) (J : World I σ Event → Prop) (p : Program I α) : Prop :=
  ∀ w, C.inv w → J w → Sat C i (fun _ => J) p w

section Keeps

variable {p : Program I α} {f : α → Program I β}

lemma keeps_ret (hJ : C.Stable i J) (a : α) : Keeps C i J (.ret a) :=
  fun _ _ hw _ h₁ _ => hJ.interferes h₁ hw

lemma keeps_raise (hJ : C.Stable i J) (e : I.Error) : Keeps C i J (.raise e : Program I α) :=
  fun _ _ hw _ h₁ _ => hJ.interferes h₁ hw

lemma keeps_bind (hp : Keeps C i J p) (hf : ∀ a, Keeps C i J (f a)) : Keeps C i J (p >>= f) := by
  refine fun w hi hw => sat_bind ((hp w hi hw).mono fun r w₁ hi₁ hw₁ => ?_)
  cases r with
  | ok a => exact hf a w₁ hi₁ hw₁
  | error e => exact hw₁

lemma keeps_catching {h : I.Error → Program I α} (hp : Keeps C i J p)
    (hh : ∀ e, Keeps C i J (h e)) : Keeps C i J (p.catching h) := by
  refine fun w hi hw => sat_catching ((hp w hi hw).mono fun r w₁ hi₁ hw₁ => ?_)
  cases r with
  | ok a => exact hw₁
  | error e => exact hh e w₁ hi₁ hw₁

lemma keeps_attempt (hp : Keeps C i J p) : Keeps C i J p.attempt :=
  fun w hi hw => sat_attempt (hp w hi hw)

lemma keeps_map {g : α → β} (hJ : C.Stable i J) (hp : Keeps C i J p) : Keeps C i J (g <$> p) :=
  keeps_bind hp fun a => keeps_ret hJ (g a)

lemma keeps_loop {f : β → α → Program I β} {xs : List α} (hJ : C.Stable i J) (acc : β)
    (hf : ∀ x ∈ xs, ∀ acc, Keeps C i J (f acc x)) : Keeps C i J (Program.loop f acc xs) := by
  refine fun w hi hw => sat_loop (fun x hx acc w hi hw => (hf x hx acc w hi hw).mono ?_) hJ
    (fun _ _ _ hw => hw) hi hw
  rintro (e | a) w _ hw <;> exact hw

lemma keeps_compositional (hJ : C.Stable i J) :
    Compositional fun (α : Type) (p : Program I α) => Keeps C i J p where
  ret := keeps_ret hJ
  raise := keeps_raise hJ
  bind := keeps_bind
  catching := keeps_catching
  attempt := keeps_attempt

lemma keeps_of_uses {φ : I.Stmt → Prop} (hp : p.Uses φ) (hJ : C.Stable i J)
    (hφ : ∀ s w, φ s → C.inv w → J w → C.pre i s w ∧
      ∀ r w', C.Answers i s w r w' → C.inv w' → J w') : Keeps C i J p := by
  intro w hi hw
  induction p generalizing w with
  | ret a => exact fun w₁ h₁ hi => hJ.interferes h₁ hw
  | raise e => exact fun w₁ h₁ hi => hJ.interferes h₁ hw
  | call s k ih =>
      intro w₁ h₁ hi
      obtain ⟨hs, hk⟩ := hφ s w₁ hp.1 hi (hJ.interferes h₁ hw)
      exact ⟨hs, fun r w₂ hr hi₂ => ih r (hp.2 r) w₂ hi₂ (hk r w₂ hr hi₂)⟩

lemma sat_returns {p : Program I α} (hpre : ∀ s w, C.pre i s w) :
    Sat C i (fun r _ => ∀ a, r = .ok a → p.Returns a) p w := by
  induction p generalizing w with
  | ret a => exact fun _ _ _ b hb => Except.ok.inj hb
  | raise e => exact fun _ _ _ b hb => by cases hb
  | call s k ih =>
      exact fun w₁ _ _ => ⟨hpre s w₁, fun r w₂ _ _ =>
        (ih r (w := w₂)).mono fun _ _ _ h a ha => ⟨r, h a ha⟩⟩

end Keeps

structure Contract.Lasting (C : Contract M) (J : World I σ Event → Prop) : Prop where
  moves : ∀ {w w'}, C.Moves w w' → J w → J w'
  answers : ∀ {i s w r w'}, C.stmts s → C.Answers i s w r w' → J w → J w'

section Lasting

lemma Contract.Lasting.stable (h : C.Lasting J) : C.Stable i J := by
  rintro w w' ⟨-, -, hm | ⟨j, s, r, -, hs, -, ha⟩⟩ hw
  · exact h.moves hm hw
  · exact h.answers hs ha hw

lemma Contract.Lasting.and (hJ : C.Lasting J) (hK : C.Lasting K) : C.Lasting fun w => J w ∧ K w where
  moves hm hw := ⟨hJ.moves hm hw.1, hK.moves hm hw.2⟩
  answers hs ha hw := ⟨hJ.answers hs ha hw.1, hK.answers hs ha hw.2⟩

lemma Contract.Lasting.imp {q : Prop} (h : C.Lasting J) : C.Lasting fun w => q → J w where
  moves hm hw hq := h.moves hm (hw hq)
  answers hs ha hw hq := h.answers hs ha (hw hq)

lemma Contract.Lasting.all {ι : Type} {p : ι → Prop} {F : ι → World I σ Event → Prop}
    (h : ∀ x, C.Lasting (F x)) : C.Lasting fun w => ∀ x, p x → F x w where
  moves hm hw x hx := (h x).moves hm (hw x hx)
  answers hs ha hw x hx := (h x).answers hs ha (hw x hx)

lemma Contract.lasting_log {p : List (Entry I σ Event) → Prop} (hp : ∀ x log, p log → p (x :: log)) :
    C.Lasting fun w => p w.log where
  moves := by
    rintro w w' (⟨n, e, a, q, -, -, rfl⟩ | ⟨j, -, rfl⟩) hw
    · exact hp _ _ hw
    · exact hp _ _ hw
  answers := by
    rintro i s w r w' - ⟨o, a, -, -, rfl⟩ hw
    exact hp _ _ hw

lemma keeps_of_lasting {p : Program I α} {φ : I.Stmt → Prop} (hJ : C.Lasting J)
    (hp : p.Uses fun s => C.stmts s ∧ φ s) (hφ : ∀ s w, φ s → C.inv w → J w → C.pre i s w) : Keeps C i J p :=
  keeps_of_uses hp hJ.stable fun s w hs hi hw => ⟨hφ s w hs.2 hi hw, fun _ _ ha _ => hJ.answers hs.1 ha hw⟩

end Lasting

/-- Started where `J` holds, the program keeps the contract and ends where `D` holds. -/
def Carries (C : Contract M) (i : ℕ) (J D : World I σ Event → Prop) (p : Program I α) : Prop :=
  ∀ w, C.inv w → J w → Sat C i (fun _ => D) p w

def Contract.Leads (C : Contract M) (i : ℕ) (s : I.Stmt) (J D : World I σ Event → Prop)
    (Q : I.Result s → World I σ Event → Prop) : Prop :=
  ∀ w, C.inv w → J w → C.pre i s w ∧ ∀ r w', C.Answers i s w r w' → C.inv w' →
    D w' ∧ ∀ a, r = .ok a → Q a w'

lemma Contract.Leads.imp {s : I.Stmt} {D D' : World I σ Event → Prop}
    {Q : I.Result s → World I σ Event → Prop} (h : C.Leads i s J D Q) (hD : ∀ w, D w → D' w) :
    C.Leads i s J D' Q := by
  intro w hi hw
  obtain ⟨hp, hk⟩ := h w hi hw
  exact ⟨hp, fun r w' ha hi' => ⟨hD w' (hk r w' ha hi').1, (hk r w' ha hi').2⟩⟩

lemma Contract.Leads.with_answer {s : I.Stmt} {D : World I σ Event → Prop} {F : I.Result s → Prop}
    {Q : I.Result s → World I σ Event → Prop} (h : C.Leads i s J D Q)
    (hF : ∀ {a w w'}, C.Answers i s w (.ok a) w' → F a) : C.Leads i s J D fun a w => F a ∧ Q a w := by
  intro w hi hw
  obtain ⟨hp, hk⟩ := h w hi hw
  refine ⟨hp, fun r w' ha hi' => ⟨(hk r w' ha hi').1, ?_⟩⟩
  rintro a rfl
  exact ⟨hF ha, (hk _ w' ha hi').2 a rfl⟩

section Carries

variable {D : World I σ Event → Prop} {s : I.Stmt} {Q : I.Result s → World I σ Event → Prop}
  {p : Program I α}

lemma carries_ret (hJ : C.Stable i J) (h : ∀ w, J w → D w) (a : α) : Carries C i J D (.ret a) :=
  fun _ _ hw _ h₁ _ => h _ (hJ.interferes h₁ hw)

lemma carries_raise (hJ : C.Stable i J) (h : ∀ w, J w → D w) (e : I.Error) :
    Carries C i J D (.raise e : Program I α) :=
  fun _ _ hw _ h₁ _ => h _ (hJ.interferes h₁ hw)

lemma Carries.of_imp {J' : World I σ Event → Prop} (hp : Carries C i J' D p) (h : ∀ w, J w → J' w) :
    Carries C i J D p :=
  fun w hi hw => hp w hi (h w hw)

lemma carries_of_leads (hJ : C.Stable i J) (hD : C.Stable i D) (hs : C.Leads i s J D Q) :
    Carries C i J D (Program.await s) := by
  intro w _ hw
  refine sat_await fun w₁ h₁ hi₁ => ?_
  obtain ⟨hp, hk⟩ := hs w₁ hi₁ (hJ.interferes h₁ hw)
  exact ⟨hp, fun r w₂ hr hi₂ w₃ h₃ _ => hD.interferes h₃ (hk r w₂ hr hi₂).1⟩

lemma carries_await_bind {f : I.Result s → Program I α} (hJ : C.Stable i J) (hD : C.Stable i D)
    (hs : C.Leads i s J D Q) (hf : ∀ a, Carries C i (Q a) D (f a)) :
    Carries C i J D (Program.await s >>= f) := by
  intro w _ hw
  refine sat_await_bind fun w₁ h₁ hi₁ => ?_
  obtain ⟨hp, hk⟩ := hs w₁ hi₁ (hJ.interferes h₁ hw)
  refine ⟨hp, fun r w₂ hr hi₂ => ?_⟩
  obtain ⟨hd, hq⟩ := hk r w₂ hr hi₂
  cases r with
  | ok a => exact hf a w₂ hi₂ (hq a rfl)
  | error e => exact fun w₃ h₃ _ => hD.interferes h₃ hd

lemma carries_attempt_bind {f : Except I.Error (I.Result s) → Program I α} (hJ : C.Stable i J)
    (hs : C.Leads i s J D Q) (hok : ∀ a, Carries C i (Q a) D (f (.ok a)))
    (herr : ∀ e, Carries C i D D (f (.error e))) :
    Carries C i J D ((Program.await s).attempt >>= f) := by
  intro w _ hw w₁ h₁ hi₁
  obtain ⟨hp, hk⟩ := hs w₁ hi₁ (hJ.interferes h₁ hw)
  refine ⟨hp, fun r w₂ hr hi₂ => ?_⟩
  obtain ⟨hd, hq⟩ := hk r w₂ hr hi₂
  cases r with
  | ok a => exact hok a w₂ hi₂ (hq a rfl)
  | error e => exact herr e w₂ hi₂ hd

lemma carries_keeps_bind {f : α → Program I β} (h : ∀ w, J w → D w) (hp : Keeps C i J p)
    (hf : ∀ a, Carries C i J D (f a)) : Carries C i J D (p >>= f) := by
  refine fun w hi hw => sat_bind ((hp w hi hw).mono fun r w₁ hi₁ hw₁ => ?_)
  cases r with
  | ok a => exact hf a w₁ hi₁ hw₁
  | error e => exact h _ hw₁

lemma carries_bind {f : α → Program I β} (hp : Carries C i J D p) (hf : ∀ a, Carries C i D D (f a)) :
    Carries C i J D (p >>= f) := by
  refine fun w hi hw => sat_bind ((hp w hi hw).mono fun r w₁ hi₁ hw₁ => ?_)
  cases r with
  | ok a => exact hf a w₁ hi₁ hw₁
  | error e => exact hw₁

lemma carries_catching {h : I.Error → Program I α} (hp : Carries C i J D p)
    (hh : ∀ e, Carries C i D D (h e)) : Carries C i J D (p.catching h) := by
  refine fun w hi hw => sat_catching ((hp w hi hw).mono fun r w₁ hi₁ hw₁ => ?_)
  cases r with
  | ok a => exact hw₁
  | error e => exact hh e w₁ hi₁ hw₁

lemma Contract.Leads.keeps (hJ : C.Stable i J) (hs : C.Leads i s J J Q) :
    Keeps C i J (Program.await s) := carries_of_leads hJ hJ hs

end Carries

/-- What is left to check once every call keeps the contract. -/
structure Contract.Sound (C : Contract M) : Prop where
  step : ∀ i s w r w', C.stmts s → C.inv w → C.pre i s w → C.Answers i s w r w' → C.inv w'
  move : ∀ w w', C.inv w → C.Moves w w' → C.inv w'
  start : ∀ n e w a p, C.inv w → (∀ x ∈ w.log, ∀ s, ¬ x.Issues n s) → C.rule.env n e w →
    M.env e n w.state = some (a, some p) → C.inv (w.move n e a) → p.Uses C.stmts ∧
      Sat C n (fun r => C.ended n (some r)) p (w.move n e a)
  kill : ∀ i w, C.inv w → C.rule.kill i w → C.inv (w.kill i (M.abort i w.state)) →
    C.Settled i (w.kill i (M.abort i w.state))

def Thread.Good (C : Contract M) (i : ℕ) (w : World I σ Event) : Thread I Out → Prop
  | .live p => p.Uses C.stmts ∧ Sat C i (fun r => C.ended i (some r)) p w
  | .killed => C.Settled i w

structure Config.Good (C : Contract M) (c : Config I Out σ Event) : Prop where
  inv : C.inv c.world
  callers : ∀ x ∈ c.world.log, ∀ i s, x.Issues i s → i < c.threads.length
  threads : ∀ i (t : Thread I Out), c.threads[i]? = some t → t.Good C i c.world

variable {c c' : Config I Out σ Event} {t : Thread I Out}

lemma Thread.Good.interferes (h : t.Good C i w) (hw : C.Interferes i w w') : t.Good C i w' := by
  cases t with
  | live p => exact ⟨h.1, h.2.interferes hw⟩
  | killed => exact fun w₁ h₁ => h w₁ (hw.trans h₁)

lemma Config.good_initial {s : σ} (h : C.inv ⟨s, []⟩) :
    (Config.initial s : Config I Out σ Event).Good C :=
  ⟨h, by simp [Config.initial], by simp [Config.initial]⟩

lemma Contract.interferes_of_moves (hi : C.inv w) (hi' : C.inv w') (h : C.Moves w w') :
    C.Interferes i w w' :=
  .single ⟨hi, hi', .inl h⟩

lemma Contract.interferes_of_answers {j : ℕ} {s : I.Stmt} {r : I.Reply s} (hi : C.inv w)
    (hi' : C.inv w') (hj : j ≠ i) (hs : C.stmts s) (hp : C.pre j s w)
    (h : C.Answers j s w r w') : C.Interferes i w w' :=
  .single ⟨hi, hi', .inr ⟨j, s, r, hj, hs, hp, h⟩⟩

lemma Config.Good.pre (h : c.Good C) {s : I.Stmt} {k : I.Reply s → Program I Out}
    (ht : c.threads[i]? = some (.live (.call s k))) : C.stmts s ∧ C.pre i s c.world := by
  obtain ⟨huses, hsat⟩ := h.threads i _ ht
  exact ⟨huses.1, (hsat c.world .refl h.inv).1⟩

lemma Config.Good.ended (h : c.Good C) {a : Out} (ht : c.threads[i]? = some (.live (.ret a))) :
    C.ended i (some (.ok a)) c.world := by
  exact (h.threads i _ ht).2 c.world .refl h.inv

lemma Config.Good.raised (h : c.Good C) {e : I.Error}
    (ht : c.threads[i]? = some (.live (.raise e))) : C.ended i (some (.error e)) c.world := by
  exact (h.threads i _ ht).2 c.world .refl h.inv

lemma Config.Good.killed (h : c.Good C) (ht : c.threads[i]? = some .killed) :
    C.ended i none c.world := by
  have hset : C.Settled i c.world := h.threads i _ ht
  exact hset c.world .refl h.inv

lemma Config.Good.live_or_over (h : c.Good C) (hi : i < c.threads.length) :
    (∃ s k, c.threads[i]? = some (.live (.call s k))) ∨ c.threads[i]? = some .killed ∨
      ∃ r, C.ended i (some r) c.world := by
  obtain ⟨t, ht⟩ : ∃ t, c.threads[i]? = some t := ⟨_, List.getElem?_eq_getElem hi⟩
  match t with
  | .killed => exact .inr (.inl ht)
  | .live (.ret a) => exact .inr (.inr ⟨_, h.ended ht⟩)
  | .live (.raise e) => exact .inr (.inr ⟨_, h.raised ht⟩)
  | .live (.call s k) => exact .inl ⟨s, k, ht⟩

lemma Config.Good.live_or_ended (h : c.Good C) (hi : i < c.threads.length) :
    (∃ s k, c.threads[i]? = some (.live (.call s k))) ∨ ∃ r, C.ended i r c.world := by
  rcases h.live_or_over hi with hlive | hkilled | ⟨r, hr⟩
  · exact .inl hlive
  · exact .inr ⟨_, h.killed hkilled⟩
  · exact .inr ⟨_, hr⟩

lemma Config.Good.act (hS : C.Sound) (h : c.Good C) {s : I.Stmt}
    {k : I.Reply s → Program I Out} {r : I.Reply s}
    (ht : c.threads[i]? = some (.live (.call s k))) (ha : C.Answers i s c.world r w') :
    Config.Good C ⟨w', c.threads.set i (.live (k r))⟩ := by
  obtain ⟨huses, hsat⟩ := h.threads i _ ht
  obtain ⟨hp, hk⟩ := hsat c.world .refl h.inv
  have hv : C.inv w' := hS.step i s _ r _ huses.1 h.inv hp ha
  have hlt : i < c.threads.length := (List.getElem?_eq_some_iff.1 ht).1
  refine ⟨hv, ?_, fun j t hj => ?_⟩
  · obtain ⟨o, a, -, -, rfl⟩ := ha
    intro x hx j s' hs'
    rw [List.length_set]
    rcases List.mem_cons.1 hx with rfl | hx
    · obtain ⟨r', b', a', h'⟩ := hs'
      obtain rfl : i = j := (Entry.answered.inj h').1
      exact hlt
    · exact h.callers x hx j s' hs'
  · rcases eq_or_ne i j with rfl | hij
    · obtain rfl : Thread.live (k r) = t := by simpa [hlt] using hj
      exact ⟨huses.2 r, hk r w' ha hv⟩
    · have hj' : c.threads[j]? = some t := by simpa [List.getElem?_set_ne hij] using hj
      exact (h.threads j t hj').interferes
        (Contract.interferes_of_answers h.inv hv hij huses.1 hp ha)

lemma Config.Good.move (hS : C.Sound) (h : c.Good C) {e : Event} {a : σ}
    {p : Option (Program I Out)} (he : C.rule.env c.threads.length e c.world)
    (hp : M.env e c.threads.length c.world.state = some (a, p)) :
    Config.Good C ⟨c.world.move c.threads.length e a,
      c.threads ++ (p.map Thread.live).toList⟩ := by
  have hm : C.Moves c.world (c.world.move c.threads.length e a) := .inl ⟨_, e, a, p, he, hp, rfl⟩
  have hv : C.inv (c.world.move c.threads.length e a) := hS.move _ _ h.inv hm
  refine ⟨hv, fun x hx j s hs => ?_, fun j t hj => ?_⟩
  · rcases List.mem_cons.1 hx with rfl | hx
    · obtain ⟨r', b', a', h'⟩ := hs
      cases h'
    · exact Nat.lt_of_lt_of_le (h.callers x hx j s hs) (by simp)
  · rcases Nat.lt_trichotomy j c.threads.length with hlt | rfl | hgt
    · rw [List.getElem?_append_left hlt] at hj
      exact (h.threads j t hj).interferes (Contract.interferes_of_moves h.inv hv hm)
    · cases p with
      | none => simp at hj
      | some q =>
          obtain rfl : Thread.live q = t := by simpa using hj
          exact hS.start _ e c.world a q h.inv
            (fun x hx s hs => absurd (h.callers x hx _ s hs) (by simp)) he hp hv
    · have hn : (c.threads ++ (p.map Thread.live).toList)[j]? = none := by
        cases p <;> simp <;> omega
      rw [hn] at hj
      cases hj

lemma Config.Good.kill (hS : C.Sound) (h : c.Good C) {s : I.Stmt} {k : I.Reply s → Program I Out}
    (ht : c.threads[i]? = some (.live (.call s k))) (hk : C.rule.kill i c.world) :
    Config.Good C ⟨c.world.kill i (M.abort i c.world.state), c.threads.set i .killed⟩ := by
  have hm : C.Moves c.world (c.world.kill i (M.abort i c.world.state)) := .inr ⟨i, hk, rfl⟩
  have hv : C.inv (c.world.kill i (M.abort i c.world.state)) := hS.move _ _ h.inv hm
  have hlt : i < c.threads.length := (List.getElem?_eq_some_iff.1 ht).1
  refine ⟨hv, fun x hx j s hs => ?_, fun j t hj => ?_⟩
  · rw [List.length_set]
    rcases List.mem_cons.1 hx with rfl | hx
    · obtain ⟨r', b', a', h'⟩ := hs
      cases h'
    · exact h.callers x hx j s hs
  · rcases eq_or_ne i j with rfl | hij
    · obtain rfl : Thread.killed = t := by simpa [hlt] using hj
      exact hS.kill i c.world h.inv hk hv
    · have hj' : c.threads[j]? = some t := by simpa [List.getElem?_set_ne hij] using hj
      exact (h.threads j t hj').interferes (Contract.interferes_of_moves h.inv hv hm)

lemma Config.Good.step (hS : C.Sound) (h : c.Good C) (hc : C.rule.Step M c c') : c'.Good C := by
  obtain ⟨l, hl, hc⟩ := hc
  rcases step_cases hc with ⟨i, o, s, k, r, σ', rfl, ht, hr, rfl⟩ | ⟨e, σ', p, rfl, hp, rfl⟩ |
    ⟨i, s, k, rfl, ht, rfl⟩
  · exact h.act hS ht ⟨o, σ', hl s k ht, hr, rfl⟩
  · exact h.move hS hl hp
  · exact h.kill hS ht hl

/-- Soundness: calls that each keep the contract keep it together, in every run. -/
lemma Config.Good.reaches (hS : C.Sound) (h : c.Good C) (hc : C.rule.Reaches M c c') :
    c'.Good C := by
  induction hc with
  | refl => exact h
  | tail _ hs ih => exact ih.step hS hs

def Contract.known (C : Contract M) : Rule I σ Event Oracle where
  act i o s w := C.rule.act i o s w ∧ C.inv w ∧ C.pre i s w
  kill i w := C.rule.kill i w ∧ C.inv w
  env n e w := C.rule.env n e w ∧ C.inv w

lemma Contract.Sound.known (hS : C.Sound) (h : c.Good C) (hc : C.rule.Reaches M c c') :
    C.known.Reaches M c c' := by
  induction hc with
  | refl => exact .refl
  | @tail d d' hreach hstep ih =>
      have hgood : d.Good C := h.reaches hS hreach
      obtain ⟨l, hl, hd⟩ := hstep
      refine ih.tail ⟨l, ?_, hd⟩
      cases l with
      | act i o => exact fun s k ht => ⟨hl s k ht, hgood.inv, (hgood.pre ht).2⟩
      | env e => exact ⟨hl, hgood.inv⟩
      | kill i => exact ⟨hl, hgood.inv⟩

/-- What holds at the start and across every step that a rule allows holds in every state of a run. -/
lemma Rule.Reaches.keeps {R : Rule I σ Event Oracle} {inv : World I σ Event → Prop}
    (h : R.Reaches M c c') (hc : inv c.world)
    (hact : ∀ i o s w r a, inv w → R.act i o s w → M.exec o i s w.state = some (r, a) → inv (w.answer i s r a))
    (hmove : ∀ n e w a p, inv w → R.env n e w → M.env e n w.state = some (a, p) → inv (w.move n e a))
    (hkill : ∀ i w, inv w → R.kill i w → inv (w.kill i (M.abort i w.state))) : inv c'.world := by
  induction h with
  | refl => exact hc
  | tail _ hstep ih =>
      obtain ⟨l, hl, hd⟩ := hstep
      rcases step_cases hd with ⟨i, o, s, k, r, σ', rfl, ht, hr, rfl⟩ | ⟨e, σ', p, rfl, hp, rfl⟩ |
        ⟨i, s, k, rfl, ht, rfl⟩
      · exact hact i o s _ r σ' ih (hl s k ht) hr
      · exact hmove _ e _ σ' p ih hl hp
      · exact hkill i _ ih hl

end VaultRun.Concurrency
